import RoDos.Fs.Outcome

set_option autoImplicit false

namespace RoDos.Fs

open Base

structure NameOk (name : List UInt8) : Prop where
  nonempty : name ≠ []
  short : name.length ≤ fsMaxFilename - 1
  noNul : ∀ byte ∈ name, byte ≠ 0

-- No more than the receive buffer of WGET holds ever becomes the size of a file.
structure EntryOk (entry : FSEntry) : Prop where
  named : NameOk entry.name
  size : entry.size ≤ 1048576

structure DirOk (currentDir : List UInt8) : Prop where
  rooted : rootDir <+: currentDir
  short : currentDir.length ≤ 255
  noNul : ∀ byte ∈ currentDir, byte ≠ 0

theorem c_string_padded (length : Nat) (text : List UInt8) (noNul : ∀ byte ∈ text, byte ≠ 0) :
    cString (paddedTo length text) = text := by
  rw [paddedTo]
  cases difference : length - text.length with
  | zero =>
      rw [List.replicate_zero, List.append_nil]
      exact c_string_self text noNul
  | succ spare => exact c_string_terminated text (List.replicate spare 0) noNul

theorem take_padded (text : List UInt8) (small large : Nat) (fits : text.length ≤ small) (order : small ≤ large) :
    (paddedTo large text).take small = paddedTo small text := by
  rw [paddedTo, List.take_append, List.take_of_length_le fits, List.take_replicate, paddedTo,
    Nat.min_eq_left (by omega)]

theorem get_padded_first (length : Nat) (text : List UInt8) (nonempty : text ≠ []) :
    (paddedTo length text).getD 0 0 ∈ text := by
  cases text with
  | nil => exact absurd rfl nonempty
  | cons byte rest => simp [paddedTo]

theorem little_endian_round_trip (value : Nat) (rest : List UInt8) (fits : value < 2 ^ 32) :
    fromLittleEndian (littleEndian value ++ rest) = value := by
  simp only [fromLittleEndian, littleEndian, List.cons_append, List.getD_cons_zero, List.getD_cons_succ,
    UInt8.toNat_ofNat']
  omega

theorem c_string_array (length : Nat) (text behind : List UInt8) (short : text.length < length)
    (noNul : ∀ byte ∈ text, byte ≠ 0) : cString (paddedTo length text ++ behind) = text := by
  obtain ⟨spare, difference⟩ : ∃ spare, length - text.length = spare + 1 := ⟨length - text.length - 1, by omega⟩
  rw [paddedTo, difference, List.replicate_succ, List.append_assoc, List.cons_append]
  exact c_string_terminated text _ noNul

theorem entry_name_short (entry : FSEntry) (ok : EntryOk entry) : entry.name.length < fsMaxFilename :=
  Nat.lt_of_le_of_lt ok.named.short (by decide)

theorem name_array_length (entry : FSEntry) (ok : EntryOk entry) :
    (paddedTo fsMaxFilename entry.name).length = fsMaxFilename :=
  padded_length _ _ (Nat.le_of_lt (entry_name_short entry ok))

theorem entry_sector_split (entry : FSEntry) (ok : EntryOk entry) : ∃ rest, entrySector entry =
    paddedTo fsMaxFilename entry.name ++ (littleEndian entry.size ++ ([entry.type, entry.attr] ++ rest)) :=
  ⟨_, by rw [entrySector, List.take_of_length_le (Nat.le_of_lt (entry_name_short entry ok)), paddedTo, List.append_assoc,
    List.append_assoc, List.append_assoc]⟩

theorem decode_entry_sector (entry : FSEntry) (ok : EntryOk entry) : decodeEntry (entrySector entry) = entry := by
  obtain ⟨rest, split⟩ := entry_sector_split entry ok
  have array := name_array_length entry ok
  have name : cString ((entrySector entry).take 64) = entry.name := by
    rw [split, List.take_append, List.take_of_length_le (Nat.le_trans (Nat.le_of_eq array) (by decide))]
    exact c_string_array fsMaxFilename entry.name _ (entry_name_short entry ok) ok.named.noNul
  have size : fromLittleEndian ((entrySector entry).drop fsMaxFilename) = entry.size := by
    rw [split, List.drop_left' array]
    exact little_endian_round_trip entry.size _ (Nat.lt_of_le_of_lt ok.size (by decide))
  have behind (i : Nat) : (entrySector entry).getD (60 + i) 0 = ([entry.type, entry.attr] ++ rest).getD i 0 := by
    have position : 60 + i = (paddedTo fsMaxFilename entry.name).length + ((littleEndian entry.size).length + i) := by
      rw [array, littleEndian, fsMaxFilename]
      simp only [List.length_cons, List.length_nil]
      omega
    rw [split, position, get_behind, get_behind]
  rw [decodeEntry, name, size, behind 0, behind 1]
  rfl

theorem entry_sector_first (entry : FSEntry) (ok : EntryOk entry) : (entrySector entry).getD 0 0 ≠ 0 := by
  have nonempty : (paddedTo fsMaxFilename entry.name).length ≠ 0 := by
    rw [name_array_length entry ok]
    decide
  obtain ⟨rest, split⟩ := entry_sector_split entry ok
  have first : (entrySector entry).getD 0 0 = (paddedTo fsMaxFilename entry.name).getD 0 0 := by
    rw [split, List.getD_append _ _ _ _ (Nat.pos_of_ne_zero nonempty)]
  rw [first]
  exact ok.named.noNul _ (get_padded_first _ _ ok.named.nonempty)

theorem entry_sector_length (entry : FSEntry) (ok : EntryOk entry) : (entrySector entry).length = sectorSize := by
  rw [entrySector, List.take_of_length_le (Nat.le_of_lt (entry_name_short entry ok))]
  apply padded_length
  simp only [List.length_append, name_array_length entry ok, littleEndian, List.length_cons, List.length_nil]
  decide

theorem user_array_length (user : UserEntry) (ok : UserOk user) : (paddedTo 32 user.username).length = 32 :=
  padded_length _ _ (Nat.le_trans ok.short (by decide))

theorem user_sector_split (user : UserEntry) (ok : UserOk user) :
    ∃ rest, userSector user = paddedTo 32 user.username ++ (user.passwordHash ++ rest) :=
  ⟨_, by rw [userSector, List.take_of_length_le (Nat.le_trans ok.short (by decide)), paddedTo, List.append_assoc]⟩

theorem decode_user_sector (user : UserEntry) (ok : UserOk user) (behind : List UInt8) :
    decodeUser (userSector user) behind = user := by
  obtain ⟨rest, split⟩ := user_sector_split user ok
  have array := user_array_length user ok
  have short : user.username.length < 32 := Nat.lt_of_le_of_lt ok.short (by decide)
  have name : cString ((userSector user).take 64 ++ behind) = user.username := by
    rw [split, List.take_append, List.take_of_length_le (Nat.le_trans (Nat.le_of_eq array) (by decide)), List.append_assoc]
    exact c_string_array 32 user.username _ short ok.noNul
  have hash : ((userSector user).drop 32).take 32 = user.passwordHash := by
    rw [split, List.drop_left' array, List.take_append_of_le_length (Nat.le_of_eq ok.hash.symm),
      List.take_of_length_le (Nat.le_of_eq ok.hash)]
  rw [decodeUser, name, hash]

theorem user_sector_first (user : UserEntry) (ok : UserOk user) : (userSector user).getD 0 0 ≠ 0 := by
  have nonempty : (paddedTo 32 user.username).length ≠ 0 := by
    rw [user_array_length user ok]
    decide
  obtain ⟨rest, split⟩ := user_sector_split user ok
  have first : (userSector user).getD 0 0 = (paddedTo 32 user.username).getD 0 0 := by
    rw [split, List.getD_append _ _ _ _ (Nat.pos_of_ne_zero nonempty)]
  rw [first]
  exact ok.noNul _ (get_padded_first _ _ ok.nonempty)

theorem user_sector_length (user : UserEntry) (ok : UserOk user) : (userSector user).length = sectorSize := by
  rw [userSector, List.take_of_length_le (Nat.le_trans ok.short (by decide))]
  apply padded_length
  rw [List.length_append, user_array_length user ok, ok.hash]
  decide

theorem dir_sector_length (currentDir : List UInt8) : (dirSector currentDir).length = sectorSize :=
  padded_length _ _ (Nat.le_trans (List.length_take_le _ _) (by decide))

-- At a restart the directory in memory is the root, which every directory saved covers.
theorem load_dir_sector (currentDir : List UInt8) (ok : DirOk currentDir) :
    loadDir (dirSector currentDir) rootDir = currentDir := by
  obtain ⟨below, rfl⟩ := ok.rooted
  have whole : (rootDir ++ below).take 256 = rootDir ++ below :=
    List.take_of_length_le (Nat.le_trans ok.short (by decide))
  have text : cString ((dirSector (rootDir ++ below)).take 256) = rootDir ++ below := by
    rw [dirSector, whole, take_padded _ 256 sectorSize (Nat.le_trans ok.short (by decide)) (by decide)]
    exact c_string_padded 256 _ ok.noNul
  have drive : (dirSector (rootDir ++ below)).getD 0 0 = 67 ∧ (dirSector (rootDir ++ below)).getD 1 0 = colon := by
    rw [dirSector, whole]
    exact ⟨rfl, rfl⟩
  have covered : rootDir.drop (rootDir ++ below).length = [] := List.drop_eq_nil_of_le (by simp)
  rw [loadDir, if_pos drive, text]
  simp only [covered, List.append_nil]
  exact List.take_of_length_le ok.short

end RoDos.Fs
