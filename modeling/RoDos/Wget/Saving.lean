import RoDos.Base.Substrings
import RoDos.Fs.Storing
import RoDos.Wget.Download

set_option autoImplicit false

namespace RoDos.Wget

open Base Tcp Fs

-- The loops for "\r\n\r\n" and for "\n\n", each up to the last place where the whole mark fits.
def headerEnd (buffer : List UInt8) : Option Nat :=
  (List.range (buffer.length - 3)).find? fun i =>
    buffer.getD i 0 = 13 ∧ buffer.getD (i + 1) 0 = 10 ∧ buffer.getD (i + 2) 0 = 13 ∧ buffer.getD (i + 3) 0 = 10

def bareEnd (buffer : List UInt8) : Option Nat :=
  (List.range (buffer.length - 1)).find? fun i => buffer.getD i 0 = 10 ∧ buffer.getD (i + 1) 0 = 10

def httpBody (buffer : List UInt8) : List UInt8 :=
  match headerEnd buffer with
  | some i => buffer.drop (i + 4)
  | none =>
      match bareEnd buffer with
      | some i => buffer.drop (i + 2)
      | none => buffer

-- The place of the last '/', or the start of the path.
def lastSlash (path : List UInt8) : Nat :=
  (List.range path.length).foldl (fun last k => if path.getD k 0 = 47 then k else last) 0

-- Extract the filename up to '?' if present.
def outputName (path : List UInt8) : List UInt8 :=
  let name := path.drop (lastSlash path + 1)
  if name.getD 0 0 ≠ 0 ∧ name.getD 0 0 ≠ 63 then (name.takeWhile fun byte => byte ≠ 63).take 63 else ascii "index.html"

-- WGET behind its download loop.
def finishWget (fs : FileSystem) (downBuf path outputFile : List UInt8) : Option Update :=
  cmdWgetSave fs (if outputFile = [] then outputName path else outputFile) (httpBody downBuf)

def crlf : List UInt8 := [13, 10]

-- A status line and header lines, an empty line, then the body with any bytes.
def responseText (lines : List (List UInt8)) (body : List UInt8) : List UInt8 := lines.flatMap (· ++ crlf) ++ (crlf ++ body)

def HeaderLine (line : List UInt8) : Prop := line ≠ [] ∧ (13 : UInt8) ∉ line

theorem crlf_solid : ∀ byte ∈ crlf, byte ≠ 0 :=
  List.forall_mem_cons.mpr ⟨by decide, List.forall_mem_singleton.mpr (by decide)⟩

theorem header_end_first (buffer : List UInt8) : headerEnd buffer = findSub (crlf ++ crlf) buffer := by
  refine find_range_sub (crlf ++ crlf) buffer (List.cons_ne_nil _ _) _ fun i _ => ?_
  have solid : ∀ byte ∈ crlf ++ crlf, byte ≠ 0 := List.forall_mem_append.mpr ⟨crlf_solid, crlf_solid⟩
  rw [prefix_drop_iff_get (crlf ++ crlf) buffer 0 solid, decide_eq_true_iff]
  constructor
  · rintro ⟨one, two, three, four⟩ k below
    match k, below with
    | 0, _ => exact one
    | 1, _ => exact two
    | 2, _ => exact three
    | 3, _ => exact four
  · exact fun all => ⟨all 0 (by decide), all 1 (by decide), all 2 (by decide), all 3 (by decide)⟩

theorem response_cons (line : List UInt8) (lines : List (List UInt8)) (body : List UInt8) :
    responseText (line :: lines) body = line ++ (crlf ++ responseText lines body) := by
  simp only [responseText, List.flatMap_cons, List.append_assoc]

theorem find_mark (line : List UInt8) (lines : List (List UInt8)) (body : List UInt8)
    (wellFormed : ∀ other ∈ line :: lines, HeaderLine other) :
    ∃ i, findSub (crlf ++ crlf) (responseText (line :: lines) body) = some i ∧
      (responseText (line :: lines) body).drop (i + 4) = body := by
  induction lines generalizing line with
  | nil =>
      have clean := (wellFormed line List.mem_cons_self).2
      have here : findSub (crlf ++ crlf) (crlf ++ responseText [] body) = some 0 :=
        (find_sub_some_iff _ _ _).mpr (first_at_zero _ _ (List.prefix_append (crlf ++ crlf) body))
      refine ⟨line.length, ?_, ?_⟩
      · rw [response_cons, show crlf ++ crlf = 13 :: [10, 13, 10] from rfl, find_sub_skip 13 _ line _ clean]
        show (findSub (crlf ++ crlf) _).map _ = _
        rw [here, Option.map_some, Nat.zero_add]
      · rw [response_cons, ← List.drop_drop, List.drop_left]
        rfl
  | cons next lines ih =>
      obtain ⟨j, found, rest⟩ := ih next fun other member => wellFormed other (List.mem_cons_of_mem _ member)
      have clean := (wellFormed line List.mem_cons_self).2
      have further := wellFormed next (List.mem_cons_of_mem _ List.mem_cons_self)
      have apart : ¬ (crlf ++ crlf).isPrefixOf (crlf ++ responseText (next :: lines) body) = true := by
        rw [List.isPrefixOf_iff_prefix, List.prefix_append_right_inj]
        cases next with
        | nil => exact absurd rfl further.1
        | cons c next =>
            intro starts
            exact further.2 ((List.cons_prefix_cons.mp starts).1 ▸ List.mem_cons_self)
      have behind : findSub (crlf ++ crlf) ([10] ++ responseText (next :: lines) body) = some (j + 1) := by
        have skipped := find_sub_skip 13 [10, 13, 10] [10] (responseText (next :: lines) body) (by decide)
        rw [show (13 : UInt8) :: [10, 13, 10] = crlf ++ crlf from rfl, found] at skipped
        exact skipped
      have whole : findSub (crlf ++ crlf) (crlf ++ responseText (next :: lines) body) = some (j + 2) := by
        show (if (crlf ++ crlf).isPrefixOf (crlf ++ responseText (next :: lines) body) then some 0
          else (findSub (crlf ++ crlf) ([10] ++ responseText (next :: lines) body)).map (· + 1)) = _
        rw [if_neg apart, behind]
        rfl
      refine ⟨j + 2 + line.length, ?_, ?_⟩
      · rw [response_cons, show crlf ++ crlf = 13 :: [10, 13, 10] from rfl, find_sub_skip 13 _ line _ clean]
        show (findSub (crlf ++ crlf) _).map _ = _
        rw [whole, Option.map_some]
      · have places : j + 2 + line.length + 4 = line.length + (2 + (j + 4)) := by omega
        rw [response_cons, places, ← List.drop_drop, List.drop_left, ← List.drop_drop]
        exact rest

theorem response_body (line : List UInt8) (lines : List (List UInt8)) (body : List UInt8)
    (wellFormed : ∀ other ∈ line :: lines, HeaderLine other) : httpBody (responseText (line :: lines) body) = body := by
  obtain ⟨i, found, rest⟩ := find_mark line lines body wellFormed
  rw [httpBody, header_end_first, found]
  exact rest

theorem fold_last (test : Nat → Prop) [DecidablePred test] (m d : Nat) (here : test m)
    (behind : ∀ k, m < k → k < m + 1 + d → ¬ test k) :
    (List.range (m + 1 + d)).foldl (fun last k => if test k then k else last) 0 = m := by
  induction d with
  | zero => rw [Nat.add_zero, List.range_succ, List.foldl_append, List.foldl_cons, List.foldl_nil, if_pos here]
  | succ d ih =>
      rw [Nat.add_succ, List.range_succ, List.foldl_append, List.foldl_cons, List.foldl_nil, if_neg (behind _ (by omega) (by omega))]
      exact ih fun k after below => behind k after (by omega)

theorem last_slash_append (front name : List UInt8) (clean : (47 : UInt8) ∉ name) :
    lastSlash (front ++ 47 :: name) = front.length := by
  have size : (front ++ 47 :: name).length = front.length + 1 + name.length := by
    rw [List.length_append, List.length_cons]
    omega
  rw [lastSlash, size]
  refine fold_last _ _ _ ?_ fun k after below here => clean ?_
  · rw [List.getD_append_right _ _ _ _ (Nat.le_refl _), Nat.sub_self]
    rfl
  · rw [List.getD_append_right _ _ _ _ (Nat.le_of_lt after)] at here
    obtain ⟨j, same⟩ : ∃ j, k - front.length = j + 1 := ⟨k - front.length - 1, by omega⟩
    rw [same, List.getD_cons_succ, List.getD_eq_getElem _ _ (by omega)] at here
    exact here ▸ List.getElem_mem _

theorem output_name_path (front name query : List UInt8) (some' : name ≠ []) (short : name.length ≤ 63)
    (clean : ∀ byte ∈ name, byte ≠ 0 ∧ byte ≠ 47 ∧ byte ≠ 63) (plain : (47 : UInt8) ∉ query) (asked : query.head? = none ∨ query.head? = some 63) :
    outputName (front ++ 47 :: (name ++ query)) = name := by
  have free : (47 : UInt8) ∉ name ++ query := fun member => by
    rcases List.mem_append.mp member with inside | behind
    · exact (clean 47 inside).2.1 rfl
    · exact plain behind
  have rest : (front ++ 47 :: (name ++ query)).drop (front.length + 1) = name ++ query := by
    rw [← List.drop_drop, List.drop_left]
    rfl
  have taken : ((name ++ query).takeWhile fun byte => byte ≠ 63) = name := by
    rw [List.takeWhile_append_of_pos fun byte member => decide_eq_true (clean byte member).2.2]
    cases query with
    | nil => exact List.append_nil _
    | cons c query =>
        have mark : c = 63 := by simpa using asked
        rw [mark]
        exact List.append_nil _
  have first : (name ++ query).getD 0 0 ≠ 0 ∧ (name ++ query).getD 0 0 ≠ 63 := by
    cases name with
    | nil => exact absurd rfl some'
    | cons c name =>
        have solid := clean c List.mem_cons_self
        exact ⟨solid.1, solid.2.2⟩
  simp only [outputName, last_slash_append front (name ++ query) free, rest, if_pos first, taken]
  exact List.take_of_length_le short

structure FileAt (fs : FileSystem) (path : List UInt8) (i : Nat) : Prop where
  storable : Storable fs i
  place : (findEntry fs path = none ∧ i = fs.fsTable.length ∧ i < fsMaxFiles) ∨
    (findEntry fs path = some i ∧ findTyped fs path 0 = some i)

theorem put_shown (fs opened : FileSystem) (path data : List UInt8) (i : Nat) (storable : Storable opened i)
    (found : findTyped opened path 0 = some i) (size : sizeAt opened i = data.length)
    (others : ∀ other, other < fs.fsTable.length → other ≠ i → opened.fsTable[other]? = fs.fsTable[other]?)
    (contents : opened.fileContents = fs.fileContents) (dir : opened.currentDir = fs.currentDir) :
    ∃ written, putContent opened i (keptData data) (data.take maxFileSize).length = some written ∧
      written.currentDir = fs.currentDir ∧ catPath written path = some (data.take maxFileSize, 0) ∧ OthersKept fs written i := by
  obtain ⟨written, put⟩ := (put_content_storable opened i (data.take maxFileSize).length (keptData data)).mpr storable
  obtain ⟨table, _, records⟩ := put_content_record _ _ _ _ _ put
  obtain ⟨content, _⟩ := put_content_written _ _ _ _ _ (data.take maxFileSize) (List.length_take_le _ _) (kept_data_take data) put
  have kept : written.currentDir = opened.currentDir := by
    cases put_content_cases _ _ _ _ _ put with
    | filled _ _ _ _ same => rw [same]
    | appended _ same => rw [same]
  refine ⟨written, put, kept.trans dir, ?_, fun other old different => ?_⟩
  · have there : findTyped written path 0 = some i := by rw [← found, findTyped, table, findTyped]
    have sized : sizeAt written i = data.length := by rw [← size, sizeAt, table, sizeAt]
    rw [catPath, there]
    show (shownWith written (sizeAt written i) i).map _ = _
    rw [shownWith, sized, content]
    by_cases empty : data = []
    · rw [empty]
      rfl
    · rw [if_neg fun zero => empty (List.length_eq_zero_iff.mp zero)]
      rfl
  · rw [table]
    refine ⟨others other old different, content_of_same _ _ _ ((records other different).trans ?_)⟩
    rw [recordOf, contents, recordOf]

theorem save_shown (fs : FileSystem) (filename data path : List UInt8) (built : contentPath fs filename = some path)
    (short : path.length < fsMaxFilename) (i : Nat) (file : FileAt fs path i) :
    ∃ next, saveFileContent fs filename data = some (next, 0) ∧ next.currentDir = fs.currentDir ∧
      catPath next path = some (data.take maxFileSize, 0) ∧ OthersKept fs next i := by
  rcases file.place with ⟨absent, last, space⟩ | ⟨found, typed⟩
  · subst last
    have whole : storedName path = path := List.take_of_length_le (Nat.le_sub_one_of_lt short)
    have typed : findTyped (addEntry fs ⟨storedName path, data.length, 0, 0⟩) path 0 = some fs.fsTable.length :=
      (find_typed_last _ _ _ _).mpr ⟨find_typed_absent fs path 0 absent, whole, rfl⟩
    obtain ⟨next, put, dir, shown, others⟩ := put_shown fs (addEntry fs ⟨storedName path, data.length, 0, 0⟩) path data _ file.storable
      typed (size_at_add_new fs _) (fun other old _ => List.getElem?_append_left old) rfl rfl
    refine ⟨next, ?_, dir, shown, others⟩
    rw [save_new fs filename data path built absent space, put]
    rfl
  · have inside := find_entry_lt fs path i found
    have typed' : findTyped (setSize fs i data.length) path 0 = some i := (find_typed_set_size fs i data.length path 0).trans typed
    obtain ⟨next, put, dir, shown, others⟩ := put_shown fs (setSize fs i data.length) path data i file.storable
      typed' (size_at_set_size fs i data.length inside) (fun other _ different => set_size_other fs i data.length other different) rfl rfl
    refine ⟨next, ?_, dir, shown, others⟩
    rw [save_old fs filename data path built i found, put]
    rfl

structure FileName (name : List UInt8) : Prop where
  some' : name ≠ []
  short : name.length ≤ 63
  clean : ∀ byte ∈ name, byte ≠ 0 ∧ byte ≠ 47 ∧ byte ≠ 63 ∧ isSpace byte = false
  free : name.getD 1 0 ≠ colon

theorem file_name_string (name : List UInt8) (named : FileName name) : cString name = name :=
  c_string_self name fun byte member => (named.clean byte member).1

theorem file_name_token (name : List UInt8) (named : FileName name) : token name = name := by
  obtain ⟨leading, _⟩ := word_framed isSpace [] name [] nofun (fun byte member => (named.clean byte member).2.2.2) named.some' nofun
  rw [List.nil_append, List.append_nil] at leading
  rw [token, file_name_string name named, get_token_fits name 64 (by rw [leading]; exact named.short), leading]

theorem page_reaches_file (fs : FileSystem) (downBuf line : List UInt8) (lines : List (List UInt8)) (body : List UInt8)
    (wellFormed : ∀ other ∈ line :: lines, HeaderLine other) (loaded : downBuf = responseText (line :: lines) body)
    (fits : downBuf.length ≤ downloadBufSize) (front name query : List UInt8) (named : FileName name)
    (plain : (47 : UInt8) ∉ query) (asked : query.head? = none ∨ query.head? = some 63)
    (room : fs.currentDir.length + name.length < fsMaxFilename) (i : Nat) (file : FileAt fs (fs.currentDir ++ name) i) :
    ∃ update, finishWget fs downBuf (front ++ 47 :: (name ++ query)) [] = some update ∧ update.saves = true ∧ update.code = 0 ∧
      cmdCat update.fs name = some (body.take maxFileSize, 0) ∧ OthersKept fs update.fs i := by
  have output := output_name_path front name query named.some' named.short
    (fun byte member => ⟨(named.clean byte member).1, (named.clean byte member).2.1, (named.clean byte member).2.2.1⟩) plain asked
  have string : (cString name).take 63 = name := by rw [file_name_string name named, List.take_of_length_le named.short]
  have built : contentPath fs name = some (fs.currentDir ++ name) := by
    rw [contentPath, if_neg named.free, fullPath, if_pos (Nat.lt_of_lt_of_le room (by decide))]
  obtain ⟨next, stored, dir, shown, others⟩ := save_shown fs name body _ built (by rwa [List.length_append]) i file
  have small : ¬ (name = [] ∨ 1048576 < body.length) := by
    rintro (empty | big)
    · exact named.some' empty
    · have whole : body.length ≤ downBuf.length := by
        rw [loaded, responseText, List.length_append, List.length_append]
        omega
      exact absurd (Nat.lt_of_lt_of_le big (Nat.le_trans whole fits)) (Nat.lt_irrefl _)
  refine ⟨⟨next, true, 0, 0⟩, ?_, rfl, rfl, ?_, others⟩
  · rw [finishWget, if_pos rfl, output, loaded, response_body line lines body wellFormed, cmdWgetSave]
    simp only [string, if_neg small, stored, Option.bind_some]
    rfl
  · rw [cmd_cat_path next name (by rw [file_name_token name named]; exact named.some'), file_name_token name named, fullPath]
    show (if next.currentDir.length + name.length < 256 then _ else _ : Option _).bind (catPath next) = _
    rw [dir, if_pos (Nat.lt_of_lt_of_le room (by decide)), Option.bind_some, shown]

def emptyDisk : FileSystem := ⟨rootDir, [], [], [], ascii "root"⟩

theorem news_named : FileName (ascii "news") := by
  have solid : (ascii "news").all (fun byte => byte ≠ 0 ∧ byte ≠ 47 ∧ byte ≠ 63 ∧ isSpace byte = false) = true := by decide
  exact ⟨by decide, by decide, fun byte member => of_decide_eq_true (List.all_eq_true.mp solid byte member), by decide⟩

theorem news_new : FileAt emptyDisk (emptyDisk.currentDir ++ ascii "news") 0 :=
  ⟨Or.inr (show 0 < maxContents by decide), Or.inl ⟨rfl, rfl, by decide⟩⟩

theorem page_header : ∀ other ∈ [ascii "HTTP/1.0 200 OK"], HeaderLine other := fun other member => by
  rw [List.mem_singleton.mp member]
  exact ⟨by decide, by decide⟩

end RoDos.Wget
