import SpeechRom.Proofs.Annotation.Mentions
import SpeechRom.Proofs.Decode.Prefixes

/-! Setting up a disassembly. The place of the image is checked before its room, and both before
the symbols; the table of formats always passes. What passes has the bytes of the ROM at their
addresses and the symbols of the annotations.
-/

namespace SpeechRom

-----------------------------------------------------------------------------------------
-- Origins
-----------------------------------------------------------------------------------------

namespace Annotations

end Annotations

namespace Disassembly

/-- The byte at which an image starts: the one that the settings give, or the last one that the
annotations give, or zero if the annotations give none, or `$1000` if there are no annotations.
-/
inductive StartsAt : Option Annotations → Settings → UInt32 → Prop
  | given {annotations : Option Annotations} {settings : Settings} {byte : UInt32}
    (set : settings.origin = some byte)
    : StartsAt annotations settings byte
  | annotated {before after : Annotations} {settings : Settings} {byte : UInt32}
    (unset : settings.origin = none) (last : ∀ other, .origin other ∉ after)
    : StartsAt (some (before ++ .origin byte :: after)) settings byte
  | unannotated {hints : Annotations} {settings : Settings}
    (unset : settings.origin = none) (absent : ∀ other, .origin other ∉ hints)
    : StartsAt (some hints) settings 0
  | alone {settings : Settings} (unset : settings.origin = none)
    : StartsAt none settings 0x1000

/-- Images start in the 16-bit space if settings and annotations keep to it. -/
theorem StartsAt.le {annotations : Option Annotations} {settings : Settings} {byte : UInt32}
    (starts : StartsAt annotations settings byte) (valid : settings.validate = .ok ())
    (addressable : ∀ hint ∈ annotations.getD [], hint.Addressable)
    : byte ≤ 0xFFFF := by
  cases starts with
  | given set =>
      by_contra above
      have large : 0xFFFF < byte := UInt32.not_le.mp above
      simp only [Settings.validate, Settings.fault?, set, Option.bind_some, Settings.originFault?,
        if_pos large] at valid
      split at valid
      · cases valid
      · rename_i fine
        split at fine <;> cases fine
  | annotated => exact addressable _ (List.mem_append_right _ List.mem_cons_self)
  | unannotated | alone => decide

-----------------------------------------------------------------------------------------
-- Images
-----------------------------------------------------------------------------------------

/-- Whether the words of a ROM from a byte on end below the top of the bit address space. -/
def Fits (rom : Bytes) (byte : UInt32) : Prop :=
  8 * byte.toNat + 32 * ((rom.size + 3) / 4) ≤ 2 ^ 32 - 1

instance (rom : Bytes) (byte : UInt32) : Decidable (Fits rom byte) :=
  inferInstanceAs (Decidable (_ ≤ _))

namespace SetsUp

variable {rom : Bytes} {hints : Annotations} {byte : UInt32}
  {outcome : Except SetupError Disassembly}

end SetsUp

end Disassembly

end SpeechRom
