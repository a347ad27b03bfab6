import Mathlib.Tactic.Common

set_option autoImplicit false

namespace Base

abbrev Disk := Nat → List UInt8

structure Write where
  lba : Nat
  sector : List UInt8
deriving DecidableEq, Repr

def writeSector (disk : Disk) (write : Write) : Disk :=
  fun lba => if lba = write.lba then write.sector else disk lba

def writeAll (disk : Disk) (writes : List Write) : Disk := writes.foldl writeSector disk

theorem write_all_append (disk : Disk) (front back : List Write) :
    writeAll disk (front ++ back) = writeAll (writeAll disk front) back := List.foldl_append

theorem write_all_elsewhere (disk : Disk) (writes : List Write) (lba : Nat)
    (other : ∀ write ∈ writes, write.lba ≠ lba) : writeAll disk writes lba = disk lba := by
  induction writes generalizing disk with
  | nil => rfl
  | cons write rest ih =>
      have notHere : lba ≠ write.lba := fun same => other write (by simp) same.symm
      have later := ih (writeSector disk write) fun next member => other next (by simp [member])
      rw [writeAll, List.foldl_cons, ← writeAll, later, writeSector, if_neg notHere]

theorem write_all_here (disk : Disk) (writes : List Write) (lba : Nat) (sector : List UInt8)
    (agreed : ∀ write ∈ writes, write.lba = lba → write.sector = sector)
    (written : ∃ write ∈ writes, write.lba = lba) : writeAll disk writes lba = sector := by
  induction writes generalizing disk with
  | nil => simp at written
  | cons write rest ih =>
      rw [writeAll, List.foldl_cons, ← writeAll]
      by_cases again : ∃ next ∈ rest, next.lba = lba
      · exact ih _ (fun next member => agreed next (by simp [member])) again
      · have rest : ∀ next ∈ rest, next.lba ≠ lba := fun next member same => again ⟨next, member, same⟩
        obtain ⟨found, member, here⟩ := written
        have head : write.lba = lba := by
          rcases List.mem_cons.mp member with rfl | later
          · exact here
          · exact absurd here (rest found later)
        rw [write_all_elsewhere _ _ _ rest, writeSector, if_pos head.symm]
        exact agreed write (by simp) head

end Base
