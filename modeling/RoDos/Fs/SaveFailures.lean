import RoDos.Fs.Restore

set_option autoImplicit false

namespace RoDos.Fs

open Base

-- A write that is lost does no harm if the sector is written once more or holds its bytes already.
def LossHarmless (failing : Nat → Bool) : Nat → Disk → List DiskAction → Prop
  | _, _, [] => True
  | n, disk, .write write _ :: rest =>
      if failing n then
        ((∃ later ∈ writesOf rest, later.lba = write.lba) ∨ disk write.lba = write.sector) ∧
          LossHarmless failing (n + 1) disk rest
      else LossHarmless failing (n + 1) (writeSector disk write) rest
  | _, _, .outOfBounds :: _ => True

def HoldsSaved (fs : FileSystem) (disk finish : Disk) : Prop :=
  ∀ write ∈ writesOf (saveActions fs), finish write.lba = savedDisk fs disk write.lba

structure ShowsSaved (fs loaded : FileSystem) : Prop where
  files : ∀ entry ∈ loaded.fsTable, entry ∈ fs.fsTable
  users : ∀ user ∈ loaded.userTable, user ∈ fs.userTable ∨ user = rootUser
  contents : ∀ content ∈ loaded.fileContents, ∀ record, lastRecord fs content.fileIdx = some record →
    content.data = paddedTo maxFileSize ((image record).take content.size)

theorem perform_elsewhere (failing : Nat → Bool) (n : Nat) (disk finish : Disk) (actions : List DiskAction)
    (complete : Bool) (lba : Nat) (done : perform failing n disk actions = some (finish, complete))
    (other : ∀ write ∈ writesOf actions, write.lba ≠ lba) : finish lba = disk lba := by
  cases perform_sectors failing n disk finish actions complete done lba with
  | inl same => exact same
  | inr written =>
      obtain ⟨write, required, member, here, _⟩ := written
      exact absurd here (other write ((writes_of_member _ _).mpr ⟨required, member⟩))

-- For each sector the last write to it decides, on the disk as on the one that is meant.
theorem perform_holds_iff (failing : Nat → Bool) (n : Nat) (disk meant finish : Disk) (actions : List DiskAction)
    (done : perform failing n disk actions = some (finish, true)) :
    (∀ write ∈ writesOf actions, finish write.lba = writeAll meant (writesOf actions) write.lba) ↔
      LossHarmless failing n disk actions := by
  induction actions generalizing n disk meant with
  | nil => exact iff_of_true nofun trivial
  | cons action rest ih =>
      cases action with
      | outOfBounds => cases done
      | write write required =>
          have split : writesOf (.write write required :: rest) = write :: writesOf rest := rfl
          have last (reached : Disk) (later : perform failing (n + 1) reached rest = some (finish, true))
              (once : ¬ ∃ other ∈ writesOf rest, other.lba = write.lba) :
              finish write.lba = reached write.lba ∧
                writeAll (writeSector meant write) (writesOf rest) write.lba = write.sector := by
            have others : ∀ other ∈ writesOf rest, other.lba ≠ write.lba := fun other member here => once ⟨other, member, here⟩
            refine ⟨perform_elsewhere _ _ _ _ _ _ _ later others, ?_⟩
            rw [write_all_elsewhere _ _ _ others, writeSector, if_pos rfl]
          rw [split, List.forall_mem_cons, LossHarmless]
          by_cases lost : failing n = true
          · rw [perform, if_pos lost] at done
            cases required with
            | true => cases done
            | false =>
                rw [if_neg Bool.false_ne_true] at done
                rw [if_pos lost, ← ih (n + 1) disk (writeSector meant write) done]
                refine and_congr_left fun later => ?_
                by_cases again : ∃ other ∈ writesOf rest, other.lba = write.lba
                · refine iff_of_true ?_ (Or.inl again)
                  obtain ⟨other, member, here⟩ := again
                  rw [← here]
                  exact later other member
                · obtain ⟨kept, sector⟩ := last _ done again
                  rw [or_iff_right again, kept]
                  exact ⟨fun same => same.trans sector, fun same => same.trans sector.symm⟩
          · rw [perform, if_neg lost] at done
            rw [if_neg lost, ← ih (n + 1) (writeSector disk write) (writeSector meant write) done]
            refine ⟨fun all => all.2, fun later => ⟨?_, later⟩⟩
            by_cases again : ∃ other ∈ writesOf rest, other.lba = write.lba
            · obtain ⟨other, member, here⟩ := again
              rw [← here]
              exact later other member
            · obtain ⟨kept, sector⟩ := last _ done again
              exact kept.trans ((if_pos rfl).trans sector.symm)

theorem holds_saved_whole (failing : Nat → Bool) (fs : FileSystem) (disk finish : Disk)
    (done : fsSaveToDisk failing fs disk = some (finish, true)) (holds : HoldsSaved fs disk finish) :
    finish = savedDisk fs disk := by
  funext lba
  by_cases written : ∃ write ∈ writesOf (saveActions fs), write.lba = lba
  · obtain ⟨write, member, here⟩ := written
    rw [← here]
    exact holds write member
  · have other : ∀ write ∈ writesOf (saveActions fs), write.lba ≠ lba := fun write member here => written ⟨write, member, here⟩
    rw [perform_elsewhere _ _ _ _ _ _ _ done other, savedDisk, write_all_elsewhere _ _ _ other]

theorem load_data_full (failing : Nat → Bool) (disk : Disk) (fileIdx size : Nat) (data : List UInt8) (sectors : List Nat)
    (full : data.length = maxFileSize) : loadData failing disk fileIdx size data sectors = data := by
  induction sectors with
  | nil => rfl
  | cons s rest ih =>
      rw [loadData]
      split
      · exact ih
      · dsimp only
        rw [List.take_left' full]
        exact ih

section
variable (fs : FileSystem) (disk : Disk) (ok : FsOk fs) (small : ∀ content ∈ fs.fileContents, content.size ≤ maxFileSize)
include ok small

theorem saved_data_whole (k size : Nat) (last : FileContent) (found : lastRecord fs k = some last) :
    loadData never (savedDisk fs disk) k size [] (List.range (min 16 (sectorsNeeded size))) = (image last).take size := by
  by_cases fits : size ≤ maxFileSize
  · exact saved_data fs disk ok small k size last found fits
  have member : last ∈ fs.fileContents := List.mem_reverse.mp (List.mem_of_find?_eq_some found)
  have stored : (last.data.take last.size).length ≤ maxFileSize :=
    Nat.le_trans (List.length_take_le _ _) (small last member)
  have length : (image last).length = maxFileSize := padded_length _ _ stored
  have sectors : ∃ more, List.range (min 16 (sectorsNeeded size)) = List.range 8 ++ more := by
    have many : min 16 (sectorsNeeded size) = 8 + (min 16 (sectorsNeeded size) - 8) := by
      rw [maxFileSize] at fits
      rw [sectorsNeeded]
      omega
    rw [many, List.range_add]
    exact ⟨_, rfl⟩
  obtain ⟨more, parts⟩ := sectors
  have first := load_data_image (savedDisk fs disk) k size 8 (image last) length (Nat.le_refl 8) fun s inside => by
    rw [saved_content fs disk ok small k s (by omega), found]
    exact image_sector last (ok.lengths last member) (small last member) s inside
  have whole : (image last).take (min size (8 * 512)) = image last := by
    apply List.take_of_length_le
    rw [length, maxFileSize] at *
    omega
  rw [parts, load_data_append, first, whole, load_data_full _ _ _ _ _ _ length, List.take_of_length_le (by omega)]

theorem saved_shows : ShowsSaved fs (fsInitCommands never (savedDisk fs disk)) := by
  refine ⟨fun entry member => ?_, fun user member => ?_, fun content member record found => ?_⟩
  · obtain ⟨i, inside, occupied, decoded⟩ := load_table_member never _ (List.range 64) entry member
    have table := saved_table fs disk small
    by_cases before : i < fs.fsTable.length
    · have here := List.getElem?_eq_getElem before
      rw [table.filled i _ (List.mem_range.mp inside) here,
        decode_entry_sector _ (ok.entries _ (List.getElem_mem before))] at decoded
      rw [decoded]
      exact List.getElem_mem before
    · rw [table.spare i (Nat.le_of_not_lt before) (List.mem_range.mp inside)] at occupied
      exact absurd blank_sector_first occupied
  · have loaded : user ∈ loadUsers never (savedDisk fs disk) (List.range 5) ∨ user = rootUser := by
      rw [fsInitCommands] at member
      dsimp only at member
      split at member
      · exact Or.inr (List.mem_singleton.mp member)
      · exact Or.inl member
    refine loaded.imp_left fun slot => ?_
    obtain ⟨i, inside, occupied, behind, decoded⟩ := load_users_member never _ (List.range 5) user slot
    by_cases before : i < fs.userTable.length
    · have here := List.getElem?_eq_getElem before
      rw [saved_user fs disk ok small i _ (List.mem_range.mp inside) here,
        decode_user_sector _ (ok.users _ (List.getElem_mem before))] at decoded
      rw [decoded]
      exact List.getElem_mem before
    · rw [saved_spare_user fs disk ok small i (Nat.le_of_not_lt before) (List.mem_range.mp inside)] at occupied
      exact absurd blank_sector_first occupied
  · obtain ⟨slot, _, loaded⟩ := List.mem_filterMap.mp (List.mem_of_mem_take member)
    have owner := load_content_owner _ _ _ _ _ loaded
    rw [loadContent] at loaded
    split at loaded
    · cases loaded
      rw [saved_data_whole fs disk ok small slot.2 slot.1.size record (owner ▸ found)]
    · cases loaded
end

instance lossHarmlessDecidable (failing : Nat → Bool) (n : Nat) (disk : Disk) :
    (actions : List DiskAction) → Decidable (LossHarmless failing n disk actions)
  | [] => .isTrue trivial
  | .outOfBounds :: _ => .isTrue trivial
  | .write write _ :: rest =>
      haveI := lossHarmlessDecidable failing (n + 1) disk rest
      haveI := lossHarmlessDecidable failing (n + 1) (writeSector disk write) rest
      inferInstanceAs (Decidable (if failing n then _ ∧ _ else _))

def emptied : FileSystem := ⟨rootDir, [], [rootUser], [], ascii "root"⟩

def deletedDisk : Disk := fun lba => if lba = fsDataStartLba then entrySector ⟨ascii "C:\\A", 0, 0, 0x20⟩ else blankSector

end RoDos.Fs
