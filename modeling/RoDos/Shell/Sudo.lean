import RoDos.Fs.Model
import RoDos.Shell.Dispatch

set_option autoImplicit false

namespace RoDos.Shell

open Base Fs

-- A call with the keys still to come: deeper if it nests more calls of cmd_dispatch than it may,
-- waiting while it has not returned.
inductive Reply where
  | deeper
  | waiting
  | returned (fs : FileSystem) (result : Int)
deriving DecidableEq

def replyOf (done : Option Update) : Reply := done.elim .waiting fun update => .returned update.fs update.code

abbrev Others := Handler → List UInt8 → FileSystem → List UInt16 → Option (FileSystem × Int)

-- The commands that store into the user table or the current user, and FORMAT. The others store
-- into neither, whatever else they do.
def runHandler (others : Others) (func : Handler) (args : List UInt8) (fs : FileSystem) (keys : List UInt16) : Reply :=
  match func with
  | .cmdUseradd => replyOf (cmdUseradd fs args)
  | .cmdUserdel => replyOf (cmdUserdel fs args)
  | .cmdPasswd => replyOf (cmdPasswd fs args keys)
  | .cmdLogin => replyOf (cmdLogin fs args)
  | .cmdSu => replyOf (cmdLogin fs args)
  | .cmdLogout => replyOf (cmdLogout fs)
  | .cmdFormat => replyOf (keys.head?.bind (cmdFormat fs))
  | func =>
      (others func args fs keys).elim .waiting fun done =>
        .returned { done.1 with userTable := fs.userTable, currentUser := fs.currentUser } done.2

-- The call that cmd_dispatch makes for a line; nested stands for cmd_sudo.
def callCommand (others : Others) (nested : List UInt8 → FileSystem → List UInt16 → Reply) (line : List UInt8)
    (fs : FileSystem) (keys : List UInt16) : Reply :=
  match cmdDispatch line with
  | .empty => .returned fs 0
  | .unknown => .returned fs (-255)
  | .handler func args => if func = .cmdSudo then nested args fs keys else runHandler others func args fs keys

-- none while the password is not complete, else the password, none for ESC, and the keys left.
def sudoPassword (password : List UInt8) : List UInt16 → Option (Option (List UInt8) × List UInt16)
  | [] => if 31 ≤ password.length then some (some password, []) else none
  | k :: keys =>
      if 31 ≤ password.length then some (some password, k :: keys)
      else
        let key := k.toUInt8
        if key = 13 ∨ key = 10 then some (some password, keys)
        else if key = 27 then some (none, keys)
        else if key = 8 ∧ password ≠ [] then sudoPassword password.dropLast keys
        else if 32 ≤ key ∧ key ≤ 126 then sudoPassword (password ++ [key]) keys
        else sudoPassword password keys

def becomeRoot (fs : FileSystem) : FileSystem := { fs with currentUser := ascii "root" }

-- saved_user holds 32 bytes.
def restoreUser (savedUser : List UInt8) : Reply → Reply
  | .returned fs result => .returned { fs with currentUser := savedUser.take 31 } result
  | reply => reply

def sudoBody (dispatch : List UInt8 → FileSystem → List UInt16 → Reply) (args : List UInt8) (fs : FileSystem)
    (keys : List UInt16) : Reply :=
  let line := skipSpaces args
  if line = [] then .returned fs (-1)
  else if fs.currentUser = ascii "root" then dispatch line fs keys
  else
    match sudoPassword [] keys with
    | none => .waiting
    | some (none, _) => .returned fs (-1)
    | some (some password, rest) =>
        if password = [] then .returned fs (-1)
        else restoreUser fs.currentUser (dispatch line (becomeRoot fs) rest)

-- cmd_sudo with at most depth calls of cmd_dispatch below it.
def cmdSudo (others : Others) : Nat → List UInt8 → FileSystem → List UInt16 → Reply
  | 0 => sudoBody fun _ _ _ => .deeper
  | depth + 1 => sudoBody (callCommand others (cmdSudo others depth))

theorem skip_spaces_length (s : List UInt8) : (skipSpaces s).length ≤ s.length := (List.dropWhile_sublist _).length_le

theorem word_shortens (args : List UInt8) (word : skipSpaces args ≠ []) :
    (getToken (skipSpaces args) 64).2.length < args.length := by
  have again : skipSpaces (skipSpaces args) = skipSpaces args := List.dropWhile_idempotent isSpace args
  have shorter := get_token_shortens (skipSpaces args) 64 (by decide) (by rw [again]; exact word)
  exact Nat.lt_of_lt_of_le shorter (skip_spaces_length args)

theorem sudo_body_congr (dispatch other : List UInt8 → FileSystem → List UInt16 → Reply) (args : List UInt8)
    (same : skipSpaces args ≠ [] → dispatch (skipSpaces args) = other (skipSpaces args)) :
    sudoBody dispatch args = sudoBody other args := by
  funext fs keys
  simp only [sudoBody]
  by_cases empty : skipSpaces args = []
  · rw [if_pos empty, if_pos empty]
  · rw [if_neg empty, if_neg empty, same empty]

theorem restore_deeper (savedUser : List UInt8) (reply : Reply) :
    restoreUser savedUser reply = .deeper ↔ reply = .deeper := by
  cases reply with
  | deeper => exact iff_of_true rfl rfl
  | waiting => exact iff_of_false nofun nofun
  | returned fs result => exact iff_of_false nofun nofun

theorem sudo_body_deeper (dispatch : List UInt8 → FileSystem → List UInt16 → Reply) (args : List UInt8)
    (fs : FileSystem) (keys : List UInt16)
    (shallow : skipSpaces args ≠ [] → ∀ fs keys, dispatch (skipSpaces args) fs keys ≠ .deeper) :
    sudoBody dispatch args fs keys ≠ .deeper := by
  simp only [sudoBody]
  by_cases empty : skipSpaces args = []
  · rw [if_pos empty]
    exact nofun
  rw [if_neg empty]
  split
  · exact shallow empty fs keys
  split
  · exact nofun
  · exact nofun
  · split
    · exact nofun
    · exact fun deep => shallow empty _ _ ((restore_deeper _ _).mp deep)

theorem reply_not_deeper (done : Option Update) : replyOf done ≠ .deeper := by
  cases done with
  | none => exact nofun
  | some update => exact nofun

theorem handler_not_deeper (others : Others) (func : Handler) (args : List UInt8) (fs : FileSystem) (keys : List UInt16) :
    runHandler others func args fs keys ≠ .deeper := by
  unfold runHandler
  split
  all_goals first
    | exact reply_not_deeper _
    | skip
  cases others func args fs keys with
  | none => exact nofun
  | some done => exact nofun

section
variable (others : Others)

theorem call_command_deeper (nested : List UInt8 → FileSystem → List UInt16 → Reply) (line : List UInt8)
    (shallow : ∀ fs keys, nested (getToken line 64).2 fs keys ≠ .deeper) (fs : FileSystem) (keys : List UInt16) :
    callCommand others nested line fs keys ≠ .deeper := by
  simp only [callCommand, cmdDispatch]
  by_cases empty : line = []
  · rw [if_pos empty]
    exact Reply.noConfusion
  rw [if_neg empty]
  cases findCommand ((getToken line 64).1.map toUpper) with
  | none => exact Reply.noConfusion
  | some func =>
      dsimp only
      split
      · exact shallow fs keys
      · exact handler_not_deeper others func _ fs keys

theorem call_command_congr (nested other : List UInt8 → FileSystem → List UInt16 → Reply) (line : List UInt8)
    (same : nested (getToken line 64).2 = other (getToken line 64).2) :
    callCommand others nested line = callCommand others other line := by
  funext fs keys
  simp only [callCommand, cmdDispatch]
  by_cases empty : line = []
  · rw [if_pos empty]
  rw [if_neg empty]
  cases findCommand ((getToken line 64).1.map toUpper) with
  | none => rfl
  | some func =>
      dsimp only
      rw [same]

theorem sudo_not_deeper (depth : Nat) (args : List UInt8) (enough : args.length ≤ depth) (fs : FileSystem)
    (keys : List UInt16) : cmdSudo others depth args fs keys ≠ .deeper := by
  induction depth generalizing args fs keys with
  | zero =>
      refine sudo_body_deeper _ args fs keys fun word => absurd ?_ word
      exact List.eq_nil_of_length_eq_zero (Nat.le_zero.mp (Nat.le_trans (skip_spaces_length args) enough))
  | succ depth ih =>
      refine sudo_body_deeper _ args fs keys fun word fs keys => call_command_deeper others _ _ (ih _ ?_) fs keys
      have shorter := word_shortens args word
      omega

theorem sudo_depth_irrelevant (depth : Nat) (args : List UInt8) (enough : args.length ≤ depth) :
    cmdSudo others depth args = cmdSudo others (depth + 1) args := by
  induction depth generalizing args with
  | zero =>
      refine sudo_body_congr _ _ args fun word => absurd ?_ word
      exact List.eq_nil_of_length_eq_zero (Nat.le_zero.mp (Nat.le_trans (skip_spaces_length args) enough))
  | succ depth ih =>
      refine sudo_body_congr _ _ args fun word => call_command_congr others _ _ _ (ih _ ?_)
      have shorter := word_shortens args word
      omega

theorem sudo_depth_same (depth : Nat) (args : List UInt8) (enough : args.length ≤ depth) :
    cmdSudo others depth args = cmdSudo others args.length args := by
  induction depth, enough using Nat.le_induction with
  | base => rfl
  | succ depth enough ih => rw [← sudo_depth_irrelevant others depth args enough, ih]
end

theorem restored (savedUser : List UInt8) (reply : Reply) (next : FileSystem) (result : Int)
    (returned : restoreUser savedUser reply = .returned next result) :
    ∃ inner, reply = .returned inner result ∧ next = { inner with currentUser := savedUser.take 31 } := by
  cases reply with
  | deeper => cases returned
  | waiting => cases returned
  | returned inner other =>
      cases returned
      exact ⟨inner, rfl, rfl⟩

theorem sudo_body_user (dispatch : List UInt8 → FileSystem → List UInt16 → Reply) (args : List UInt8)
    (fs next : FileSystem) (keys : List UInt16) (result : Int) (notRoot : fs.currentUser ≠ ascii "root")
    (short : fs.currentUser.length ≤ 31) (returned : sudoBody dispatch args fs keys = .returned next result) :
    next.currentUser = fs.currentUser := by
  simp only [sudoBody] at returned
  by_cases empty : skipSpaces args = []
  · rw [if_pos empty] at returned
    cases returned
    rfl
  rw [if_neg empty, if_neg notRoot] at returned
  split at returned
  · cases returned
  · cases returned
    rfl
  · split at returned
    · cases returned
      rfl
    · obtain ⟨inner, _, rfl⟩ := restored _ _ next result returned
      exact List.take_of_length_le short

theorem cmd_sudo_body (others : Others) (depth : Nat) : ∃ dispatch, cmdSudo others depth = sudoBody dispatch := by
  cases depth with
  | zero => exact ⟨_, rfl⟩
  | succ depth => exact ⟨_, rfl⟩

theorem sudo_keeps_user (others : Others) (args : List UInt8) (fs : FileSystem) (keys : List UInt16)
    (notRoot : fs.currentUser ≠ ascii "root") (short : fs.currentUser.length ≤ 31) :
    (∀ depth, args.length ≤ depth → cmdSudo others depth args fs keys ≠ .deeper ∧
      cmdSudo others depth args fs keys = cmdSudo others args.length args fs keys) ∧
    ∀ next result, cmdSudo others args.length args fs keys = .returned next result → next.currentUser = fs.currentUser := by
  refine ⟨fun depth enough => ⟨sudo_not_deeper others depth args enough fs keys, ?_⟩, fun next result returned => ?_⟩
  · rw [sudo_depth_same others depth args enough]
  · obtain ⟨dispatch, body⟩ := cmd_sudo_body others args.length
    rw [body] at returned
    exact sudo_body_user dispatch args fs next keys result notRoot short returned

def bobAtWork : FileSystem :=
  ⟨rootDir, [], [rootUser, ⟨ascii "bob", passwordHash (ascii "bob")⟩], [], ascii "bob"⟩

theorem sudo_keeps_user_login : ∃ next result,
    cmdSudo (fun _ _ _ _ => none) (ascii "SUDO LOGIN root").length (ascii "SUDO LOGIN root") bobAtWork [97, 13] =
      .returned next result ∧ next.currentUser = ascii "bob" := by
  have kept := (sudo_keeps_user (fun _ _ _ _ => none) (ascii "SUDO LOGIN root") bobAtWork [97, 13] (by decide) (by decide)).2
  have done : ∃ next result, cmdSudo (fun _ _ _ _ => none) (ascii "SUDO LOGIN root").length (ascii "SUDO LOGIN root")
      bobAtWork [97, 13] = .returned next result := ⟨bobAtWork, 0, by decide +kernel⟩
  obtain ⟨next, result, returned⟩ := done
  exact ⟨next, result, returned, kept next result returned⟩

end RoDos.Shell
