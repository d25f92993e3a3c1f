import SpeechRom.Proofs.Decode.Tiling

/-! The cursor of the first pass at the top of the address space. An image has to end below the top,
but its last instruction may stick out of it: then the cursor goes around to the bottom, still
before the end of the ROM, and the pass goes on far away from the image.
-/

namespace SpeechRom

/-- Tiles lie one behind the other, each with its end after its start. -/
theorem Tiles.rising {limit start stop : Nat} {instructions : List Instruction}
    (tiles : Tiles limit start instructions stop)
    : instructions.Pairwise (·.address < ·.address)
      ∧ ∀ instruction ∈ instructions,
          start ≤ instruction.address.toNat ∧ instruction.address < instruction.finish := by
  induction instructions generalizing start with
  | nil => exact ⟨.nil, fun _ member => absurd member List.not_mem_nil⟩
  | cons first rest ih =>
      obtain ⟨place, -, long, ends, later⟩ := tiles
      obtain ⟨rising, above⟩ := ih later
      refine ⟨List.pairwise_cons.mpr ⟨fun next member => ?_, rising⟩, fun next member => ?_⟩
      · have behind := (above next member).1
        rw [BitAddress.lt_iff]
        omega
      · rcases List.mem_cons.mp member with rfl | member
        · rw [BitAddress.lt_iff]
          omega
        · obtain ⟨behind, onward⟩ := above next member
          exact ⟨by omega, onward⟩

namespace Disassembly

/-- However many steps the first pass makes, its cursor rises all the time, and the instructions
tile the bits that it has passed over, or the ROM ends in the last 136 bits of the address space,
and the cursor rises only up to an instruction that carries it around the top.
-/
theorem passes_rise_until_wrapping {disassembly : Disassembly} {decoded : List Instruction}
    {stop : BitAddress} {final : DecoderState}
    (passes : Passes Sp0256.table disassembly.romFinish disassembly.origin disassembly.startState
      decoded stop final)
    : let limit := disassembly.romFinish.toNat
      let origin := disassembly.origin.toNat
      ((∀ instruction ∈ decoded, instruction.address < instruction.finish)
        ∧ decoded.Pairwise (·.address < ·.address)
        ∧ Tiles limit origin decoded stop.toNat)
      ∨ (4294967296 - 136 < limit
        ∧ ∃ before wrapping after,
            decoded = before ++ wrapping :: after
            ∧ Tiles limit origin before wrapping.address.toNat
            ∧ wrapping.address < disassembly.romFinish
            ∧ wrapping.finish < wrapping.address
            ∧ wrapping.finish.toNat < 136) := by
  intro limit origin
  rcases passes.tiles_or_wraps with
    tiles | ⟨before, wrapping, after, split, tiles, below, high, low⟩
  · obtain ⟨rising, onward⟩ := tiles.rising
    exact .inl ⟨fun instruction member => (onward instruction member).2, rising, tiles⟩
  · have inside := BitAddress.lt_iff.mp below
    refine .inr ⟨by omega, before, wrapping, after, split, tiles, below, ?_, low⟩
    rw [BitAddress.lt_iff]
    omega

/-- All parameters are set in the last word that an image can have. The instruction has 120 bits, of
which 64 are left below the top. It ends at byte `$0007`, which is before the end of the ROM, so the
pass goes on there.
-/
theorem loadAll_at_top
    : ∃ disassembly stop final,
        (setup #[0x01, 0x00, 0x00, 0x00] none { origin := some 0x1FFFFFF8 }).outcome
          = .ok disassembly
        ∧ Passes Sp0256.table disassembly.romFinish disassembly.origin disassembly.startState
            disassembly.decodeAll.disassembly.instructions.toList stop final
        ∧ disassembly.romFinish = ⟨0xFFFFFFE0⟩
        ∧ disassembly.decodeAll.disassembly.instructions.toList.map
            (fun instruction => (instruction.address, instruction.finish))
          = [(⟨0xFFFFFFC0⟩, ⟨0x38⟩), (⟨0x38⟩, ⟨0x40⟩), (⟨0x40⟩, ⟨0x48⟩), (⟨0x48⟩, ⟨0x50⟩)] := by
  obtain ⟨disassembly, accepted, finish, places⟩
      : ∃ disassembly,
          (setup #[0x01, 0x00, 0x00, 0x00] none { origin := some 0x1FFFFFF8 }).outcome
            = .ok disassembly
          ∧ disassembly.romFinish = ⟨0xFFFFFFE0⟩
          ∧ disassembly.decodeAll.disassembly.instructions.toList.map
              (fun instruction => (instruction.address, instruction.finish))
            = [(⟨0xFFFFFFC0⟩, ⟨0x38⟩), (⟨0x38⟩, ⟨0x40⟩), (⟨0x40⟩, ⟨0x48⟩), (⟨0x48⟩, ⟨0x50⟩)] :=
    ⟨_, rfl, by decide, by decide +kernel⟩
  obtain ⟨stop, final, passes, -⟩ := disassembly.decodeAll_passes
  exact ⟨disassembly, stop, final, accepted, passes, finish, places⟩

/-- The cursor of the first pass can go around the top: an instruction of an image that is accepted
starts below the end of the ROM and does not end behind its start, and the addresses of the pass do
not rise.
-/
theorem cursor_wraps_at_top
    : ∃ disassembly,
        (setup #[0x01, 0x00, 0x00, 0x00] none { origin := some 0x1FFFFFF8 }).outcome
          = .ok disassembly
        ∧ (∃ wrapping ∈ disassembly.decodeAll.disassembly.instructions.toList,
            wrapping.address < disassembly.romFinish ∧ ¬ wrapping.address < wrapping.finish)
        ∧ ¬ disassembly.decodeAll.disassembly.instructions.toList.Pairwise
            (·.address < ·.address) := by
  obtain ⟨disassembly, -, -, accepted, -, finish, places⟩ := loadAll_at_top
  refine ⟨disassembly, accepted, ?_, fun rising => ?_⟩
  · obtain ⟨wrapping, rest, split, place, -⟩ := List.map_eq_cons_iff.mp places
    obtain ⟨address, ends⟩ := Prod.mk.inj place
    refine ⟨wrapping, split ▸ List.mem_cons_self, ?_, ?_⟩
    · rw [address, finish]
      decide
    · rw [address, ends]
      decide
  · have ascending : (disassembly.decodeAll.disassembly.instructions.toList.map
        fun instruction => (instruction.address, instruction.finish)).Pairwise (·.1 < ·.1) :=
      List.pairwise_map.mpr rising
    rw [places] at ascending
    exact absurd ascending (by decide)

/-- In that image the cursor goes around the top, and not by any other way. -/
theorem passes_rise_until_wrapping_loadAll
    : ∃ disassembly decoded stop final,
        (setup #[0x01, 0x00, 0x00, 0x00] none { origin := some 0x1FFFFFF8 }).outcome
          = .ok disassembly
        ∧ Passes Sp0256.table disassembly.romFinish disassembly.origin disassembly.startState
            decoded stop final
        ∧ ∃ before wrapping after,
            decoded = before ++ wrapping :: after
            ∧ wrapping.address < disassembly.romFinish
            ∧ wrapping.finish < wrapping.address := by
  obtain ⟨disassembly, stop, final, accepted, passes, -, places⟩ := loadAll_at_top
  refine ⟨disassembly, _, stop, final, accepted, passes, ?_⟩
  rcases passes_rise_until_wrapping passes with
    ⟨onward, -, -⟩ | ⟨-, before, wrapping, after, split, -, below, wraps, -⟩
  · obtain ⟨first, rest, split, place, -⟩ := List.map_eq_cons_iff.mp places
    obtain ⟨address, ends⟩ := Prod.mk.inj place
    have less := onward first (split ▸ List.mem_cons_self)
    rw [address, ends] at less
    exact absurd less (by decide)
  · exact ⟨before, wrapping, after, split, below, wraps⟩

end Disassembly

end SpeechRom
