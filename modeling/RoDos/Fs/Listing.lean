import RoDos.Base.Substrings
import RoDos.Fs.WellFormed
import RoDos.Gui.Calculator

set_option autoImplicit false

namespace RoDos.Fs

open Base Gui

-- char buf[16]; int_to_str(n, buf); for an n kept in 32 bits.
def countText (n : Nat) : List UInt8 := cString (setAll (List.replicate 16 0) (intToStr (n % 2 ^ 32)))

-- The path of the directory, and behind it a name that is not empty and has no backslash.
def inCurrentDir (currentDir name : List UInt8) : Bool :=
  let here := (List.range currentDir.length).all fun j => name.getD j 0 = currentDir.getD j 0
  if here ∧ name.getD currentDir.length 0 ≠ 0 then !(name.drop currentDir.length).contains backslash else false

structure DirTotals where
  text : List UInt8
  files : Nat
  dirs : Nat
  size : Nat

def dirColumn (entry : FSEntry) : List UInt8 :=
  if entry.type = 1 then ascii "<DIR>      " else
    let digits := countText entry.size
    digits ++ List.replicate (11 - digits.length) 32

def dirLoop (currentDir : List UInt8) (totals : DirTotals) : List FSEntry → DirTotals
  | [] => totals
  | entry :: rest =>
      if inCurrentDir currentDir entry.name then
        let text := totals.text ++ dirColumn entry ++ entry.name.drop currentDir.length ++ ascii "\n"
        dirLoop currentDir
          (if entry.type = 1 then { totals with text := text, dirs := totals.dirs + 1 }
            else { totals with text := text, files := totals.files + 1, size := (totals.size + entry.size) % 2 ^ 32 }) rest
      else dirLoop currentDir totals rest

def cmdDir (fs : FileSystem) : List UInt8 × Int :=
  let totals := dirLoop fs.currentDir ⟨ascii "Directory of " ++ fs.currentDir ++ ascii "\n\n", 0, 0, 0⟩ fs.fsTable
  (totals.text ++ ascii "\n" ++ countText totals.files ++ ascii " file(s), " ++ countText totals.dirs ++ ascii " dir(s), " ++
    countText totals.size ++ ascii " bytes\n", 0)

def subMatch (name pattern : List UInt8) (j : Nat) : Bool :=
  (List.range pattern.length).all fun k => name.getD (j + k) 0 = pattern.getD k 0

def findMatch (name pattern : List UInt8) : Bool := (List.range name.length).any (subMatch name pattern)

def cmdFind (fs : FileSystem) (args : List UInt8) : List UInt8 × Int :=
  let pattern := token args
  if pattern = [] then (ascii "Usage: FIND pattern\n", -1)
  else
    let found := fs.fsTable.filter fun entry => findMatch entry.name pattern
    (if found = [] then ascii "No files found\n" else found.flatMap fun entry => entry.name ++ ascii "\n", 0)

def childOf (dir : List UInt8) (entry : FSEntry) : Option FSEntry :=
  let x := entry.name.drop dir.length
  if dir <+: entry.name ∧ x ≠ [] ∧ backslash ∉ x then some { entry with name := x } else none

def children (fs : FileSystem) : List FSEntry := fs.fsTable.filterMap (childOf fs.currentDir)

def listing (dir : List UInt8) (shown : List FSEntry) : List UInt8 :=
  let files := shown.filter fun entry => entry.type ≠ 1
  ascii "Directory of " ++ dir ++ ascii "\n\n" ++ (shown.flatMap fun entry => dirColumn entry ++ entry.name ++ ascii "\n") ++
    ascii "\n" ++ countText files.length ++ ascii " file(s), " ++ countText (shown.length - files.length) ++ ascii " dir(s), " ++
    countText (files.map FSEntry.size).sum ++ ascii " bytes\n"

theorem in_current_dir (dir : List UInt8) (entry : FSEntry) (solidDir : ∀ byte ∈ dir, byte ≠ 0)
    (solid : ∀ byte ∈ entry.name, byte ≠ 0) : inCurrentDir dir entry.name = (childOf dir entry).isSome := by
  have starts : ((List.range dir.length).all fun j => entry.name.getD j 0 = dir.getD j 0) = true ↔ dir <+: entry.name := by
    rw [prefix_iff_get dir entry.name 0 solidDir, List.all_eq_true]
    exact forall_congr' fun j => by rw [List.mem_range, decide_eq_true_iff]
  have some' : entry.name.getD dir.length 0 ≠ 0 ↔ entry.name.drop dir.length ≠ [] := by
    rw [Ne, Ne, List.drop_eq_nil_iff, not_le, List.getD_eq_getElem?_getD]
    by_cases inside : dir.length < entry.name.length
    · rw [List.getElem?_eq_getElem inside]
      exact iff_of_true (solid _ (List.getElem_mem inside)) inside
    · rw [List.getElem?_eq_none (Nat.le_of_not_lt inside)]
      exact iff_of_false (not_not.mpr rfl) inside
  rw [inCurrentDir, childOf, if_congr (and_congr starts some') rfl rfl]
  by_cases here : dir <+: entry.name ∧ entry.name.drop dir.length ≠ []
  · rw [if_pos here]
    by_cases nested : backslash ∈ entry.name.drop dir.length
    · rw [if_neg fun all => all.2.2 nested, List.contains_iff_mem.mpr nested]
      rfl
    · rw [if_pos ⟨here.1, here.2, nested⟩, Bool.eq_false_iff.mpr fun found => nested (List.contains_iff_mem.mp found)]
      rfl
  · rw [if_neg here, if_neg fun all => here ⟨all.1, all.2.1⟩]
    rfl

theorem count_text_mod (n : Nat) : countText (n % 2 ^ 32) = countText n := by
  rw [countText, countText, Nat.mod_mod]

theorem child_fields (dir : List UInt8) (entry child : FSEntry) (same : childOf dir entry = some child) :
    entry.name = dir ++ child.name ∧ child.name ≠ [] ∧ backslash ∉ child.name ∧ child = { entry with name := child.name } := by
  rw [childOf] at same
  split at same
  · rename_i below
    obtain ⟨starts, some', plain⟩ := below
    cases same
    refine ⟨?_, some', plain, rfl⟩
    obtain ⟨x, split⟩ := starts
    rw [← split, List.drop_left]
  · cases same

theorem dir_loop_shows (dir : List UInt8) (solidDir : ∀ byte ∈ dir, byte ≠ 0) (entries : List FSEntry)
    (solid : ∀ entry ∈ entries, ∀ byte ∈ entry.name, byte ≠ 0) (totals : DirTotals) :
    let shown := entries.filterMap (childOf dir)
    let files := shown.filter fun entry => entry.type ≠ 1
    let result := dirLoop dir totals entries
    result.text = totals.text ++ (shown.flatMap fun entry => dirColumn entry ++ entry.name ++ ascii "\n") ∧
      result.files = totals.files + files.length ∧ result.dirs = totals.dirs + (shown.length - files.length) ∧
      result.size % 2 ^ 32 = (totals.size + (files.map FSEntry.size).sum) % 2 ^ 32 := by
  induction entries generalizing totals with
  | nil => simp [dirLoop]
  | cons entry rest ih =>
      have later := ih fun other member => solid other (List.mem_cons_of_mem _ member)
      have tested := in_current_dir dir entry solidDir (solid entry List.mem_cons_self)
      dsimp only
      rw [dirLoop, tested]
      cases same : childOf dir entry with
      | none =>
          rw [List.filterMap_cons_none same, if_neg (by simp)]
          exact later totals
      | some child =>
          obtain ⟨split, -, -, fields⟩ := child_fields dir entry child same
          have name : entry.name.drop dir.length = child.name := by rw [split, List.drop_left]
          have column : dirColumn entry = dirColumn child := by rw [fields]; rfl
          have type : child.type = entry.type := by rw [fields]
          have size : child.size = entry.size := by rw [fields]
          have few := List.length_filter_le (fun entry : FSEntry => decide (entry.type ≠ 1)) (rest.filterMap (childOf dir))
          rw [List.filterMap_cons_some same, if_pos (show (some child).isSome = true from rfl), name, column, List.flatMap_cons]
          dsimp only
          by_cases directory : entry.type = 1
          · obtain ⟨text, files, dirs, total⟩ := later { totals with
              text := totals.text ++ dirColumn child ++ child.name ++ ascii "\n", dirs := totals.dirs + 1 }
            dsimp only at text files dirs total
            rw [if_pos directory, List.filter_cons_of_neg (by simp [type, directory]), List.length_cons]
            exact ⟨by rw [text]; simp only [List.append_assoc], files, by rw [dirs]; omega, total⟩
          · obtain ⟨text, files, dirs, total⟩ := later { totals with
              text := totals.text ++ dirColumn child ++ child.name ++ ascii "\n", files := totals.files + 1,
              size := (totals.size + entry.size) % 2 ^ 32 }
            dsimp only at text files dirs total
            rw [if_neg directory, List.filter_cons_of_pos (by simp [type, directory]), List.length_cons, List.length_cons,
              List.map_cons, List.sum_cons, size]
            exact ⟨by rw [text]; simp only [List.append_assoc], by rw [files]; omega, by rw [dirs]; omega, by rw [total]; omega⟩

theorem cmd_dir_listing (fs : FileSystem) (solidDir : ∀ byte ∈ fs.currentDir, byte ≠ 0)
    (solid : ∀ entry ∈ fs.fsTable, ∀ byte ∈ entry.name, byte ≠ 0) : cmdDir fs = (listing fs.currentDir (children fs), 0) := by
  have shows := dir_loop_shows fs.currentDir solidDir fs.fsTable solid
    ⟨ascii "Directory of " ++ fs.currentDir ++ ascii "\n\n", 0, 0, 0⟩
  obtain ⟨text, files, dirs, total⟩ := shows
  have size := congrArg countText total
  rw [count_text_mod, count_text_mod, Nat.zero_add] at size
  rw [cmdDir, text, files, dirs, size, Nat.zero_add, Nat.zero_add]
  rfl

theorem sub_match_iff (name pattern : List UInt8) (solid : ∀ byte ∈ pattern, byte ≠ 0) (j : Nat) :
    subMatch name pattern j = true ↔ pattern <+: name.drop j := by
  rw [subMatch, List.all_eq_true, prefix_drop_iff_get pattern name 0 solid]
  refine forall_congr' fun k => ?_
  rw [List.mem_range, decide_eq_true_iff]

theorem find_match_iff (name pattern : List UInt8) (solid : ∀ byte ∈ pattern, byte ≠ 0) (some' : pattern ≠ []) :
    findMatch name pattern = true ↔ pattern <:+: name := by
  rw [findMatch, List.any_eq_true]
  constructor
  · rintro ⟨j, -, starts⟩
    exact ((sub_match_iff name pattern solid j).mp starts).isInfix.trans (List.drop_suffix j name).isInfix
  · rintro ⟨front, back, split⟩
    have positive := List.length_pos_iff.mpr some'
    refine ⟨front.length, ?_, (sub_match_iff name pattern solid _).mpr ⟨back, ?_⟩⟩
    · rw [List.mem_range, ← split, List.length_append, List.length_append]
      omega
    · rw [← split, List.append_assoc, List.drop_left]

inductive DirOp where
  | mkdir (args : List UInt8)
  | touch (args : List UInt8)
  | del (args : List UInt8)

def DirOp.args : DirOp → List UInt8
  | .mkdir args => args
  | .touch args => args
  | .del args => args

def DirOp.command : DirOp → Command
  | .mkdir args => .mkdir args
  | .touch args => .touch args
  | .del args => .del args

def listCreate (others : Nat) (shown : List FSEntry) (x : List UInt8) (type attr : UInt8) (present : Int) : List FSEntry × Int :=
  if x = [] ∨ fsMaxFiles ≤ others + shown.length then (shown, -1)
  else if shown.any fun entry => entry.name = x then (shown, present)
  else (shown ++ [⟨x, 0, type, attr⟩], 0)

def listDelete (shown : List FSEntry) (x : List UInt8) : List FSEntry × Int :=
  if shown.any fun entry => entry.name = x ∧ entry.type = 0 then (shown.eraseP fun entry => entry.name = x ∧ entry.type = 0, 0)
  else (shown, -1)

def DirOp.listed (others : Nat) (shown : List FSEntry) : DirOp → List FSEntry × Int
  | .mkdir args => listCreate others shown (token args) 1 0x10 (-1)
  | .touch args => listCreate others shown (token args) 0 0x20 0
  | .del args => listDelete shown (token args)

def runDirOps (fs : FileSystem) : List DirOp → Option (FileSystem × List Int)
  | [] => some (fs, [])
  | op :: ops => (runCommand fs op.command).bind fun update => (runDirOps update.fs ops).map fun rest => (rest.1, update.code :: rest.2)

def runListed (others : Nat) (shown : List FSEntry) : List DirOp → List FSEntry × List Int
  | [] => (shown, [])
  | op :: ops =>
      let next := op.listed others shown
      let rest := runListed others next.1 ops
      (rest.1, next.2 :: rest.2)

-- The name has no backslash, and its path fits in the entry.
def DirOp.Simple (dir : List UInt8) (op : DirOp) : Prop :=
  backslash ∉ token op.args ∧ dir.length + (token op.args).length < fsMaxFilename

theorem child_of_path (dir x : List UInt8) (size : Nat) (type attr : UInt8) (some' : x ≠ []) (plain : backslash ∉ x) :
    childOf dir ⟨dir ++ x, size, type, attr⟩ = some ⟨x, size, type, attr⟩ := by
  rw [childOf]
  dsimp only
  rw [List.drop_left, if_pos ⟨List.prefix_append dir x, some', plain⟩]

theorem child_named_iff (dir x : List UInt8) (entry : FSEntry) (some' : x ≠ []) (plain : backslash ∉ x) :
    entry.name = dir ++ x ↔ ∃ child, childOf dir entry = some child ∧ child.name = x ∧ child.type = entry.type := by
  constructor
  · intro named
    refine ⟨⟨x, entry.size, entry.type, entry.attr⟩, ?_, rfl, rfl⟩
    have same : entry = ⟨dir ++ x, entry.size, entry.type, entry.attr⟩ := by rw [← named]
    rw [same]
    exact child_of_path dir x _ _ _ some' plain
  · rintro ⟨child, same, named, -⟩
    rw [(child_fields dir entry child same).1, named]

theorem any_child (dir x : List UInt8) (some' : x ≠ []) (plain : backslash ∉ x) (test : UInt8 → Bool) (entries : List FSEntry) :
    (entries.any fun entry => entry.name = dir ++ x ∧ test entry.type) =
      (entries.filterMap (childOf dir)).any fun entry => entry.name = x ∧ test entry.type := by
  rw [Bool.eq_iff_iff, List.any_eq_true, List.any_eq_true]
  constructor
  · rintro ⟨entry, member, found⟩
    obtain ⟨named, tested⟩ := of_decide_eq_true found
    obtain ⟨child, same, under, type⟩ := (child_named_iff dir x entry some' plain).mp named
    exact ⟨child, List.mem_filterMap.mpr ⟨entry, member, same⟩, decide_eq_true ⟨under, type ▸ tested⟩⟩
  · rintro ⟨child, member, found⟩
    obtain ⟨entry, inside, same⟩ := List.mem_filterMap.mp member
    obtain ⟨under, tested⟩ := of_decide_eq_true found
    obtain ⟨split, -, -, fields⟩ := child_fields dir entry child same
    have type : child.type = entry.type := by rw [fields]
    exact ⟨entry, inside, decide_eq_true ⟨by rw [split, under], type ▸ tested⟩⟩

theorem erase_child (dir x : List UInt8) (some' : x ≠ []) (plain : backslash ∉ x) (entries : List FSEntry) :
    (entries.eraseP fun entry => entry.name = dir ++ x ∧ entry.type = 0).filterMap (childOf dir) =
      (entries.filterMap (childOf dir)).eraseP fun entry => entry.name = x ∧ entry.type = 0 := by
  induction entries with
  | nil => rfl
  | cons entry rest ih =>
      by_cases found : entry.name = dir ++ x ∧ entry.type = 0
      · obtain ⟨child, same, under, type⟩ := (child_named_iff dir x entry some' plain).mp found.1
        rw [List.eraseP_cons_of_pos (by simpa using found), List.filterMap_cons_some same,
          List.eraseP_cons_of_pos (by simpa [under, type] using found.2)]
      · rw [List.eraseP_cons_of_neg (by simpa using found)]
        cases same : childOf dir entry with
        | none => rw [List.filterMap_cons_none same, List.filterMap_cons_none same, ih]
        | some child =>
            have other : ¬ (child.name = x ∧ child.type = 0) := by
              rintro ⟨under, type⟩
              obtain ⟨split, -, -, fields⟩ := child_fields dir entry child same
              have kept : child.type = entry.type := by rw [fields]
              exact found ⟨by rw [split, under], kept ▸ type⟩
            rw [List.filterMap_cons_some same, List.filterMap_cons_some same, List.eraseP_cons_of_neg (by simpa using other), ih]

theorem full_path_simple (dir x : List UInt8) (short : dir.length + x.length < fsMaxFilename) :
    fullPath dir x = some (dir ++ x) ∧ storedName (dir ++ x) = dir ++ x := by
  have room : fsMaxFilename = 56 := rfl
  refine ⟨if_pos (by omega), List.take_of_length_le ?_⟩
  rw [List.length_append]
  omega

structure ListedAs (fs : FileSystem) (others : Nat) (update : Update) (listed : List FSEntry × Int) : Prop where
  dir : update.fs.currentDir = fs.currentDir
  shown : children update.fs = listed.1
  code : update.code = listed.2
  count : update.fs.fsTable.length = others + (children update.fs).length

theorem create_listed (fs : FileSystem) (others : Nat) (count : fs.fsTable.length = others + (children fs).length)
    (args : List UInt8) (plain : backslash ∉ token args) (short : fs.currentDir.length + (token args).length < fsMaxFilename)
    (type attr : UInt8) (present : Int) :
    ∃ update, createNamed type attr present fs args = some update ∧
      ListedAs fs others update (listCreate others (children fs) (token args) type attr present) := by
  obtain ⟨path, stored⟩ := full_path_simple _ _ short
  rw [createNamed, listCreate]
  by_cases blank : token args = []
  · rw [if_pos blank, if_pos (Or.inl blank)]
    exact ⟨_, rfl, rfl, rfl, rfl, count⟩
  rw [if_neg blank]
  by_cases full : fsMaxFiles ≤ fs.fsTable.length
  · rw [if_pos full, if_pos (Or.inr (count ▸ full))]
    exact ⟨_, rfl, rfl, rfl, rfl, count⟩
  rw [if_neg full, if_neg (not_or.mpr ⟨blank, count ▸ full⟩), path, Option.bind_some, stored, findEntry, List.findIdx?_isSome]
  have same : (fs.fsTable.any fun entry => entry.name = fs.currentDir ++ token args) =
      (children fs).any fun entry => entry.name = token args := by
    simpa [children] using any_child fs.currentDir (token args) blank plain (fun _ => true) fs.fsTable
  rw [same]
  by_cases known : ((children fs).any fun entry => entry.name = token args) = true
  · rw [if_pos known, if_pos known]
    exact ⟨_, rfl, rfl, rfl, rfl, count⟩
  · rw [if_neg known, if_neg known]
    have added : children (addEntry fs ⟨fs.currentDir ++ token args, 0, type, attr⟩) =
        children fs ++ [⟨token args, 0, type, attr⟩] := by
      show (fs.fsTable ++ [_]).filterMap (childOf fs.currentDir) = _
      rw [List.filterMap_append, List.filterMap_cons_some (child_of_path _ _ 0 type attr blank plain)]
      rfl
    refine ⟨_, rfl, rfl, added, rfl, ?_⟩
    show (fs.fsTable ++ [_]).length = others + (children (addEntry fs _)).length
    rw [added, List.length_append, List.length_append, count, Nat.add_assoc]
    rfl

theorem delete_listed (fs : FileSystem) (others : Nat) (count : fs.fsTable.length = others + (children fs).length)
    (args : List UInt8) (plain : backslash ∉ token args) (short : fs.currentDir.length + (token args).length < fsMaxFilename) :
    ∃ update, cmdDel fs args = some update ∧ ListedAs fs others update (listDelete (children fs) (token args)) := by
  obtain ⟨path, -⟩ := full_path_simple _ _ short
  rw [cmdDel, listDelete]
  by_cases blank : token args = []
  · have nameless : ¬ ((children fs).any fun entry => entry.name = token args ∧ entry.type = 0) = true := by
      rw [blank, List.any_eq_true]
      rintro ⟨child, member, found⟩
      obtain ⟨entry, -, same⟩ := List.mem_filterMap.mp member
      exact (child_fields _ entry child same).2.1 (of_decide_eq_true found).1
    rw [if_pos blank, if_neg nameless]
    exact ⟨_, rfl, rfl, rfl, rfl, count⟩
  have same : (fs.fsTable.any fun entry => entry.name = fs.currentDir ++ token args ∧ entry.type = 0) =
      (children fs).any fun entry => entry.name = token args ∧ entry.type = 0 := by
    simpa [children] using any_child fs.currentDir (token args) blank plain (fun type => type = 0) fs.fsTable
  have erased := erase_child fs.currentDir (token args) blank plain fs.fsTable
  rw [if_neg blank, path, Option.bind_some, ← same, ← List.findIdx?_isSome, findTyped]
  rw [List.eraseP_eq_eraseIdx] at erased
  cases found : fs.fsTable.findIdx? fun entry => entry.name = fs.currentDir ++ token args ∧ entry.type = 0 with
  | none => exact ⟨_, rfl, rfl, rfl, rfl, count⟩
  | some i =>
      rw [found] at erased
      have present : ((children fs).any fun entry => entry.name = token args ∧ entry.type = 0) = true := by
        rw [← same, ← List.findIdx?_isSome, found]
        rfl
      obtain ⟨child, member, named⟩ := List.any_eq_true.mp present
      have shorter : ((children fs).eraseP fun entry => entry.name = token args ∧ entry.type = 0).length = (children fs).length - 1 :=
        List.length_eraseP_of_mem member named
      have positive := List.length_pos_of_mem member
      obtain ⟨inside, -⟩ := List.findIdx?_eq_some_iff_getElem.mp found
      refine ⟨_, rfl, rfl, erased, rfl, ?_⟩
      show (fs.fsTable.eraseIdx i).length = others + ((fs.fsTable.eraseIdx i).filterMap (childOf fs.currentDir)).length
      rw [erased, List.length_eraseIdx_of_lt inside]
      show _ = others + ((children fs).eraseP _).length
      rw [shorter]
      omega

theorem op_listed (fs : FileSystem) (others : Nat) (count : fs.fsTable.length = others + (children fs).length) (op : DirOp)
    (simple : op.Simple fs.currentDir) :
    ∃ update, runCommand fs op.command = some update ∧ ListedAs fs others update (op.listed others (children fs)) := by
  cases op with
  | mkdir args => exact create_listed fs others count args simple.1 simple.2 1 0x10 (-1)
  | touch args => exact create_listed fs others count args simple.1 simple.2 0 0x20 0
  | del args => exact delete_listed fs others count args simple.1 simple.2

-- By induction on the commands, one op_listed for each.
theorem run_dir_ops_listed (fs : FileSystem) (ok : FsOk fs) (others : Nat) (count : fs.fsTable.length = others + (children fs).length)
    (ops : List DirOp) (simple : ∀ op ∈ ops, op.Simple fs.currentDir) :
    ∃ after, runDirOps fs ops = some (after, (runListed others (children fs) ops).2) ∧ FsOk after ∧
      after.currentDir = fs.currentDir ∧ children after = (runListed others (children fs) ops).1 := by
  induction ops generalizing fs with
  | nil => exact ⟨fs, rfl, ok, rfl, rfl⟩
  | cons op ops ih =>
      obtain ⟨update, run, listed⟩ := op_listed fs others count op (simple op List.mem_cons_self)
      have next := outcome_fs_ok fs update.fs op.command ok (run_command_outcome fs update op.command run)
      obtain ⟨after, rest, sound, dir, shown⟩ := ih update.fs next listed.count fun other member => by
        rw [listed.dir]
        exact simple other (List.mem_cons_of_mem _ member)
      rw [listed.shown] at rest shown
      refine ⟨after, ?_, sound, dir.trans listed.dir, shown⟩
      rw [runDirOps, run, Option.bind_some, rest, Option.map_some, listed.code]
      rfl

theorem cmd_dir_shows (fs : FileSystem) (ok : FsOk fs) : cmdDir fs = (listing fs.currentDir (children fs), 0) :=
  cmd_dir_listing fs ok.dir.noNul fun entry member => (ok.entries entry member).named.noNul

theorem listing_follows_commands (fs : FileSystem) (ok : FsOk fs) (ops : List DirOp) (simple : ∀ op ∈ ops, op.Simple fs.currentDir) :
    let listed := runListed (fs.fsTable.length - (children fs).length) (children fs) ops
    cmdDir fs = (listing fs.currentDir (children fs), 0) ∧
      ∃ after, runDirOps fs ops = some (after, listed.2) ∧ cmdDir after = (listing fs.currentDir listed.1, 0) := by
  have few : (children fs).length ≤ fs.fsTable.length := List.length_filterMap_le _ _
  obtain ⟨after, run, sound, dir, shown⟩ := run_dir_ops_listed fs ok _ (Nat.sub_add_cancel few).symm ops simple
  refine ⟨cmd_dir_shows fs ok, after, run, ?_⟩
  rw [cmd_dir_shows after sound, dir, shown]

def freshFs : FileSystem := ⟨rootDir, [], [], [], ascii "root"⟩

theorem fresh_fs_ok : FsOk freshFs where
  dir := ⟨List.prefix_refl _, by decide, fun byte member => by
    have solid : rootDir.all (fun byte => byte ≠ 0) = true := by decide
    exact of_decide_eq_true (List.all_eq_true.mp solid byte member)⟩
  entries := fun entry member => absurd member List.not_mem_nil
  count := Nat.zero_le _
  users := fun user member => absurd member List.not_mem_nil
  userCount := Nat.zero_le _
  lengths := fun content member => absurd member List.not_mem_nil

def freshOps : List DirOp := [.mkdir (ascii "docs"), .touch (ascii "notes"), .touch (ascii "docs"), .del (ascii "notes")]

theorem listing_follows_commands_fresh :
    ∃ after, runDirOps freshFs freshOps = some (after, [0, 0, 0, 0]) ∧
      cmdDir after = (listing rootDir [⟨ascii "docs", 0, 1, 0x10⟩], 0) := by
  have simple : ∀ op ∈ freshOps, op.Simple freshFs.currentDir := by
    intro op member
    simp only [freshOps, List.mem_cons, List.not_mem_nil, or_false] at member
    rcases member with rfl | rfl | rfl | rfl
    · exact ⟨by decide, by decide⟩
    · exact ⟨by decide, by decide⟩
    · exact ⟨by decide, by decide⟩
    · exact ⟨by decide, by decide⟩
  have listed : runListed 0 [] freshOps = ([⟨ascii "docs", 0, 1, 0x10⟩], [0, 0, 0, 0]) := by decide
  have follows := (listing_follows_commands freshFs fresh_fs_ok freshOps simple).2
  rwa [show children freshFs = [] from rfl, show freshFs.fsTable.length - [].length = 0 from rfl, listed] at follows

theorem find_lists_infixes (fs : FileSystem) (args : List UInt8) (named : token args ≠ []) :
    let found := fs.fsTable.filter fun entry => token args <:+: entry.name
    cmdFind fs args = (if found = [] then ascii "No files found\n" else found.flatMap fun entry => entry.name ++ ascii "\n", 0) := by
  have same : (fs.fsTable.filter fun entry => findMatch entry.name (token args)) =
      fs.fsTable.filter fun entry => token args <:+: entry.name :=
    List.filter_congr fun entry _ => by
      rw [Bool.eq_iff_iff, decide_eq_true_iff]
      exact find_match_iff entry.name (token args) (token_no_nul args) named
  rw [cmdFind, if_neg named, same]

theorem find_lists_infixes_docs :
    cmdFind { freshFs with fsTable := [⟨ascii "C:\\docs", 0, 1, 0x10⟩] } (ascii "oc") = (ascii "C:\\docs" ++ ascii "\n" ++ [], 0) :=
  find_lists_infixes { freshFs with fsTable := [⟨ascii "C:\\docs", 0, 1, 0x10⟩] } (ascii "oc") (by decide)

end RoDos.Fs
