import Mathlib.Data.List.InsertIdx
import Mathlib.Data.List.Nodup
import RoDos.Base.Runs
import RoDos.Fs.Outcome
import RoDos.Shell.Sudo

set_option autoImplicit false

namespace RoDos.Shell

open Base Fs

def userNames (fs : FileSystem) : List (List UInt8) := fs.userTable.map UserEntry.username

structure BootState (fs : FileSystem) : Prop where
  distinct : (userNames fs).Nodup
  rootKnown : ascii "root" ∈ userNames fs
  user : fs.currentUser = ascii "root"

structure SessionOp where
  func : Handler
  args : List UInt8
  keys : List UInt16

def sessionHandlers : List Handler :=
  [.cmdUseradd, .cmdUserdel, .cmdPasswd, .cmdLogin, .cmdSu, .cmdLogout, .cmdSudo, .cmdFormat]

def sessionReply (others : Others) (fs : FileSystem) (op : SessionOp) : Reply :=
  if op.func = .cmdSudo then cmdSudo others op.args.length op.args fs op.keys
  else runHandler others op.func op.args fs op.keys

def SessionStep (others : Others) (fs : FileSystem) (op : SessionOp) (next : FileSystem) : Prop :=
  op.func ∈ sessionHandlers ∧ ∃ result, sessionReply others fs op = .returned next result

def finalCommand : Nat → List UInt8 → Option (Handler × List UInt8)
  | 0, _ => none
  | depth + 1, args =>
      match cmdDispatch (skipSpaces args) with
      | .handler func rest => if func = .cmdSudo then finalCommand depth rest else some (func, rest)
      | _ => none

def Authenticated (fs : FileSystem) (keys : List UInt16) : Prop :=
  fs.currentUser = ascii "root" ∨
    ∃ password rest, sudoPassword [] keys = some (some password, rest) ∧ password ≠ []

-- USERDEL does not take the user of the session, also not under SUDO, and LOGOUT finds its account.
def KeepsUser (fs : FileSystem) (op : SessionOp) : Prop :=
  match op.func with
  | .cmdUserdel => userToken op.args ≠ fs.currentUser
  | .cmdLogout => ascii "root" ∈ userNames fs
  | .cmdSudo => Authenticated fs op.keys → ∀ args,
      finalCommand op.args.length op.args = some (.cmdUserdel, args) → userToken args ≠ fs.currentUser
  | _ => True

inductive AccountChange (func : Handler) (args : List UInt8) (fs next : FileSystem) : Prop where
  | same (names : userNames next = userNames fs) (user : next.currentUser = fs.currentUser)
      (stays : func ≠ .cmdLogout) (nobody : func = .cmdUserdel → userToken args = [])
  | added (name : List UInt8) (fresh : name ∉ userNames fs) (names : userNames next = userNames fs ++ [name])
      (user : next.currentUser = fs.currentUser) (adds : func = .cmdUseradd)
  | removed (names : userNames next = (userNames fs).erase (userToken args)) (user : next.currentUser = fs.currentUser)
      (deletes : func = .cmdUserdel) (named : userToken args ≠ [])
  | entered (names : userNames next = userNames fs) (user : next.currentUser = userToken args)
      (known : userToken args ∈ userNames fs) (enters : func = .cmdLogin ∨ func = .cmdSu) (named : userToken args ≠ [])
  | left (names : userNames next = userNames fs) (user : next.currentUser = ascii "root") (leaves : func = .cmdLogout)

theorem find_user_names (fs : FileSystem) (name : List UInt8) : findUser fs name = (userNames fs).idxOf? name := by
  rw [findUser, userNames, List.idxOf?, List.findIdx?_map]
  exact congrArg (fun p => fs.userTable.findIdx? p) (funext fun user => (beq_eq_decide _ _).symm)

theorem find_user_some (fs : FileSystem) (name : List UInt8) (i : Nat) (found : findUser fs name = some i) :
    name ∈ userNames fs := by
  obtain ⟨inside, same⟩ := find_index_lt _ _ _ found
  exact List.mem_map.mpr ⟨_, List.get_mem _ ⟨i, inside⟩, of_decide_eq_true same⟩

theorem find_user_none (fs : FileSystem) (name : List UInt8) (absent : findUser fs name = none) :
    name ∉ userNames fs := by
  intro known
  obtain ⟨user, member, same⟩ := List.mem_map.mp known
  have differs := List.findIdx?_eq_none_iff.mp absent user member
  exact of_decide_eq_false differs same

theorem account_change_same (func : Handler) (args : List UInt8) (fs next : FileSystem)
    (other : func ≠ .cmdLogout ∧ func ≠ .cmdUserdel) (names : userNames next = userNames fs)
    (user : next.currentUser = fs.currentUser) : AccountChange func args fs next :=
  .same names user other.1 fun deletes => absurd deletes other.2

section
variable (fs : FileSystem) (args : List UInt8) (update : Update)

theorem useradd_change (done : cmdUseradd fs args = some update) : AccountChange .cmdUseradd args fs update.fs := by
  simp only [cmdUseradd] at done
  split at done
  · cases done
    exact account_change_same _ _ _ _ (by decide) rfl rfl
  split at done
  · cases done
    exact account_change_same _ _ _ _ (by decide) rfl rfl
  split at done
  · cases done
    exact account_change_same _ _ _ _ (by decide) rfl rfl
  · rename_i absent
    cases done
    refine .added (userToken args) ?_ (by rw [userNames, List.map_append]; rfl) rfl rfl
    exact find_user_none fs _ (Option.not_isSome_iff_eq_none.mp absent)

theorem userdel_change (done : cmdUserdel fs args = some update) : AccountChange .cmdUserdel args fs update.fs := by
  simp only [cmdUserdel] at done
  split at done
  · rename_i empty
    cases done
    exact .same rfl rfl (by decide) fun _ => empty
  rename_i named
  split at done
  · rename_i i found
    cases done
    refine .removed ?_ rfl rfl named
    rw [find_user_names] at found
    rw [List.erase_eq_eraseIdx, found]
    exact (List.eraseIdx_map _ _ _).symm
  · rename_i absent
    cases done
    refine .removed ?_ rfl rfl named
    rw [List.erase_of_not_mem (find_user_none fs _ absent)]

theorem passwd_change (keys : List UInt16) (done : cmdPasswd fs args keys = some update) :
    AccountChange .cmdPasswd args fs update.fs := by
  simp only [cmdPasswd] at done
  split at done
  · cases done
    exact account_change_same _ _ _ _ (by decide) rfl rfl
  · rename_i i found
    obtain ⟨pwd, _, done⟩ := Option.bind_eq_some_iff.mp done
    cases done
    exact account_change_same _ _ _ _ (by decide) (map_modify_same _ _ _ _ fun _ => rfl) rfl

theorem login_change (func : Handler) (enters : func = .cmdLogin ∨ func = .cmdSu)
    (done : cmdLogin fs args = some update) : AccountChange func args fs update.fs := by
  have other : func ≠ .cmdLogout ∧ func ≠ .cmdUserdel := by
    rcases enters with rfl | rfl
    all_goals decide
  simp only [cmdLogin] at done
  split at done
  · cases done
    exact account_change_same _ _ _ _ other rfl rfl
  rename_i named
  split at done
  · rename_i i found
    cases done
    exact .entered rfl rfl (find_user_some fs _ i found) enters named
  · cases done
    exact account_change_same _ _ _ _ other rfl rfl
end

theorem reply_returned (done : Option Update) (next : FileSystem) (result : Int)
    (returned : replyOf done = .returned next result) : ∃ update, done = some update ∧ update.fs = next := by
  cases done with
  | none => cases returned
  | some update =>
      cases returned
      exact ⟨update, rfl, rfl⟩

theorem handler_change (others : Others) (func : Handler) (args : List UInt8) (fs next : FileSystem) (keys : List UInt16)
    (result : Int) (returned : runHandler others func args fs keys = .returned next result) :
    AccountChange func args fs next := by
  unfold runHandler at returned
  split at returned
  · obtain ⟨update, done, rfl⟩ := reply_returned _ _ _ returned
    exact useradd_change fs args update done
  · obtain ⟨update, done, rfl⟩ := reply_returned _ _ _ returned
    exact userdel_change fs args update done
  · obtain ⟨update, done, rfl⟩ := reply_returned _ _ _ returned
    exact passwd_change fs args update keys done
  · obtain ⟨update, done, rfl⟩ := reply_returned _ _ _ returned
    exact login_change fs args update _ (Or.inl rfl) done
  · obtain ⟨update, done, rfl⟩ := reply_returned _ _ _ returned
    exact login_change fs args update _ (Or.inr rfl) done
  · cases returned
    exact .left rfl rfl rfl
  · obtain ⟨update, done, rfl⟩ := reply_returned _ _ _ returned
    obtain ⟨k, _, done⟩ := Option.bind_eq_some_iff.mp done
    rw [cmdFormat] at done
    split at done
    · cases done
      exact account_change_same _ _ _ _ (by decide) rfl rfl
    · cases done
      exact account_change_same _ _ _ _ (by decide) rfl rfl
  · rename_i notUserdel _ _ _ notLogout _
    cases ran : others func args fs keys with
    | none =>
        rw [ran] at returned
        cases returned
    | some done =>
        rw [ran] at returned
        cases returned
        exact account_change_same _ _ _ _ ⟨notLogout, notUserdel⟩ rfl rfl

section
variable (func : Handler) (args : List UInt8) (fs next : FileSystem) (change : AccountChange func args fs next)
include change

theorem change_distinct (distinct : (userNames fs).Nodup) : (userNames next).Nodup := by
  cases change with
  | same names _ _ _ => exact names ▸ distinct
  | added name fresh names _ _ =>
      rw [names]
      exact List.nodup_append.mpr ⟨distinct, List.nodup_singleton name, fun a known b new same =>
        fresh (List.mem_singleton.mp new ▸ same ▸ known)⟩
  | removed names _ _ _ => exact names ▸ distinct.erase _
  | entered names _ _ _ _ => exact names ▸ distinct
  | left names _ _ => exact names ▸ distinct

theorem change_known (distinct : (userNames fs).Nodup) (name : List UInt8) (named : name ≠ []) (known : name ∈ userNames fs) :
    name ∈ userNames next ↔ (func = .cmdUserdel → userToken args ≠ name) := by
  cases change with
  | same names _ _ nobody =>
      rw [names]
      exact iff_of_true known fun deletes taken => named (taken ▸ nobody deletes)
  | added other fresh names _ adds =>
      rw [names]
      exact iff_of_true (List.mem_append_left _ known) fun deletes => nomatch adds.symm.trans deletes
  | removed names _ deletes _ =>
      rw [names, distinct.mem_erase_iff, and_iff_left known]
      exact ⟨fun other _ taken => other taken.symm, fun other taken => other deletes taken.symm⟩
  | entered names _ _ enters _ =>
      rw [names]
      refine iff_of_true known fun deletes => ?_
      rcases enters with login | su
      · exact nomatch login.symm.trans deletes
      · exact nomatch su.symm.trans deletes
  | left names _ leaves =>
      rw [names]
      exact iff_of_true known fun deletes => nomatch leaves.symm.trans deletes
end

structure SessionOk (fs : FileSystem) : Prop where
  distinct : (userNames fs).Nodup
  known : fs.currentUser ∈ userNames fs
  short : fs.currentUser.length ≤ 31
  named : fs.currentUser ≠ []

theorem boot_session_ok (fs : FileSystem) (boot : BootState fs) : SessionOk fs := by
  obtain ⟨distinct, known, user⟩ := boot
  refine ⟨distinct, user ▸ known, ?_, ?_⟩
  · rw [user]
    decide
  · rw [user]
    decide

theorem user_token_short (args : List UInt8) : (userToken args).length ≤ 31 := get_token_length _ 32

theorem change_kept (func : Handler) (args : List UInt8) (keys : List UInt16) (fs next : FileSystem)
    (change : AccountChange func args fs next) (ok : SessionOk fs) (other : func ≠ .cmdSudo) :
    (next.currentUser ∈ userNames next ↔ KeepsUser fs ⟨func, args, keys⟩) ∧
      next.currentUser.length ≤ 31 ∧ next.currentUser ≠ [] := by
  have names := change_known func args fs next change ok.distinct fs.currentUser ok.named ok.known
  cases change with
  | same same user stays nobody =>
      rw [user]
      refine ⟨?_, ok.short, ok.named⟩
      rw [names, KeepsUser]
      split
      · rename_i deletes
        exact ⟨fun kept => kept deletes, fun kept _ => kept⟩
      · rename_i leaves
        exact absurd leaves stays
      · rename_i nested
        exact absurd nested other
      · rename_i notUserdel _ _
        exact iff_of_true (fun deletes => absurd deletes notUserdel) trivial
  | added name fresh _ user adds =>
      rw [user, names, adds]
      exact ⟨iff_of_true (fun deletes => nomatch deletes) trivial, ok.short, ok.named⟩
  | removed _ user deletes named =>
      rw [user, names, deletes]
      exact ⟨⟨fun kept => kept rfl, fun kept _ => kept⟩, ok.short, ok.named⟩
  | entered same user known enters named =>
      rw [user, same]
      refine ⟨iff_of_true known ?_, user_token_short args, named⟩
      rcases enters with rfl | rfl
      · trivial
      · trivial
  | left same user leaves =>
      rw [user, same, leaves]
      exact ⟨Iff.rfl, by decide, by decide⟩

theorem dispatched_shorter (args rest : List UInt8) (func : Handler)
    (called : cmdDispatch (skipSpaces args) = .handler func rest) : rest.length < args.length := by
  rw [cmdDispatch] at called
  split at called
  · cases called
  · rename_i word
    have shorter := word_shortens args word
    cases found : findCommand ((getToken (skipSpaces args) 64).1.map toUpper) with
    | none =>
        simp only [found] at called
        cases called
    | some other =>
        simp only [found, Dispatch.handler.injEq] at called
        exact called.2 ▸ shorter

section
variable (others : Others)

theorem call_command_root (depth : Nat) (args : List UInt8) (fs : FileSystem) (keys : List UInt16)
    (nested : ∀ rest, rest.length < args.length →
      (∃ func final, finalCommand depth rest = some (func, final) ∧ func ≠ .cmdSudo ∧
        cmdSudo others depth rest fs keys = runHandler others func final fs keys) ∨
      (finalCommand depth rest = none ∧ ∃ result, cmdSudo others depth rest fs keys = .returned fs result)) :
    (∃ func final, finalCommand (depth + 1) args = some (func, final) ∧ func ≠ .cmdSudo ∧
      callCommand others (cmdSudo others depth) (skipSpaces args) fs keys = runHandler others func final fs keys) ∨
    (finalCommand (depth + 1) args = none ∧
      ∃ result, callCommand others (cmdSudo others depth) (skipSpaces args) fs keys = .returned fs result) := by
  rw [finalCommand]
  simp only [callCommand]
  cases called : cmdDispatch (skipSpaces args) with
  | empty => exact Or.inr ⟨rfl, _, rfl⟩
  | unknown => exact Or.inr ⟨rfl, _, rfl⟩
  | handler func rest =>
      dsimp only
      by_cases sudo' : func = .cmdSudo
      · rw [if_pos sudo', if_pos sudo']
        exact nested rest (dispatched_shorter args rest func called)
      · rw [if_neg sudo', if_neg sudo']
        exact Or.inl ⟨func, rest, rfl, sudo', rfl⟩

theorem sudo_root (depth : Nat) (args : List UInt8) (enough : args.length ≤ depth) (fs : FileSystem) (keys : List UInt16)
    (root : fs.currentUser = ascii "root") :
    (∃ func final, finalCommand depth args = some (func, final) ∧ func ≠ .cmdSudo ∧
      cmdSudo others depth args fs keys = runHandler others func final fs keys) ∨
    (finalCommand depth args = none ∧ ∃ result, cmdSudo others depth args fs keys = .returned fs result) := by
  induction depth generalizing args with
  | zero =>
      have nothing := List.eq_nil_of_length_eq_zero (Nat.le_zero.mp enough)
      rw [nothing]
      exact Or.inr ⟨rfl, -1, rfl⟩
  | succ depth ih =>
      have nested := call_command_root others depth args fs keys fun rest shorter => ih rest (by omega)
      by_cases empty : skipSpaces args = []
      · refine Or.inr ⟨by rw [finalCommand, empty]; rfl, -1, ?_⟩
        simp only [cmdSudo, sudoBody]
        rw [if_pos empty]
      · have same : cmdSudo others (depth + 1) args fs keys =
            callCommand others (cmdSudo others depth) (skipSpaces args) fs keys := by
          simp only [cmdSudo, sudoBody]
          rw [if_neg empty, if_pos root]
        rw [same]
        exact nested

inductive SudoOutcome (depth : Nat) (args : List UInt8) (keys : List UInt16) (fs next : FileSystem) : Prop where
  | idle (names : userNames next = userNames fs) (user : next.currentUser = fs.currentUser)
      (nothing : Authenticated fs keys → finalCommand depth args = none)
  | direct (func : Handler) (final : List UInt8) (root : fs.currentUser = ascii "root")
      (here : finalCommand depth args = some (func, final)) (other : func ≠ .cmdSudo)
      (change : AccountChange func final fs next)
  | raised (func : Handler) (final : List UInt8) (inner : FileSystem) (allowed : Authenticated fs keys)
      (here : finalCommand depth args = some (func, final)) (change : AccountChange func final (becomeRoot fs) inner)
      (names : userNames next = userNames inner) (user : next.currentUser = fs.currentUser)

theorem sudo_outcome (depth : Nat) (args : List UInt8) (enough : args.length ≤ depth) (keys : List UInt16)
    (fs next : FileSystem) (short : fs.currentUser.length ≤ 31) (result : Int)
    (returned : cmdSudo others depth args fs keys = .returned next result) : SudoOutcome depth args keys fs next := by
  by_cases root : fs.currentUser = ascii "root"
  · rcases sudo_root others depth args enough fs keys root with ⟨func, final, here, other, ran⟩ | ⟨none', other, idle⟩
    · exact .direct func final root here other (handler_change others func final fs next keys result (ran.symm.trans returned))
    · cases idle.symm.trans returned
      exact .idle rfl rfl fun _ => none'
  cases depth with
  | zero =>
      have nothing := List.eq_nil_of_length_eq_zero (Nat.le_zero.mp enough)
      rw [nothing] at returned
      cases returned
      exact .idle rfl rfl fun _ => rfl
  | succ depth =>
      simp only [cmdSudo, sudoBody] at returned
      by_cases empty : skipSpaces args = []
      · rw [if_pos empty] at returned
        cases returned
        exact .idle rfl rfl fun _ => by rw [finalCommand, empty]; rfl
      rw [if_neg empty, if_neg root] at returned
      -- Without a password there is no call.
      have refused (bad : ¬ ∃ password rest, sudoPassword [] keys = some (some password, rest) ∧ password ≠ []) :
          Authenticated fs keys → finalCommand (depth + 1) args = none :=
        fun allowed => absurd (allowed.resolve_left root) bad
      cases typed : sudoPassword [] keys with
      | none =>
          simp only [typed] at returned
          cases returned
      | some done =>
          obtain ⟨password, rest⟩ := done
          cases password with
          | none =>
              simp only [typed] at returned
              cases returned
              refine .idle rfl rfl (refused ?_)
              rintro ⟨_, _, same, _⟩
              cases typed.symm.trans same
          | some password =>
              simp only [typed] at returned
              by_cases blank : password = []
              · rw [if_pos blank] at returned
                cases returned
                refine .idle rfl rfl (refused ?_)
                rintro ⟨_, _, same, given⟩
                cases typed.symm.trans same
                exact given blank
              rw [if_neg blank] at returned
              obtain ⟨inner, ran, rfl⟩ := restored _ _ next result returned
              have user : fs.currentUser.take 31 = fs.currentUser := List.take_of_length_le short
              rcases call_command_root others depth args (becomeRoot fs) rest fun line shorter =>
                  sudo_root others depth line (by omega) (becomeRoot fs) rest rfl with
                ⟨func, final, here, _, called⟩ | ⟨none', other, idle⟩
              · exact .raised func final inner (Or.inr ⟨password, rest, typed, blank⟩) here
                  (handler_change others func final (becomeRoot fs) inner rest result (called.symm.trans ran)) rfl user
              · cases idle.symm.trans ran
                exact .idle rfl user fun _ => none'

theorem sudo_keeps_iff (fs : FileSystem) (keys : List UInt16) (depth : Nat) (args final : List UInt8) (func : Handler)
    (allowed : Authenticated fs keys) (here : finalCommand depth args = some (func, final)) :
    (Authenticated fs keys → ∀ last, finalCommand depth args = some (.cmdUserdel, last) → userToken last ≠ fs.currentUser) ↔
      (func = .cmdUserdel → userToken final ≠ fs.currentUser) := by
  constructor
  · intro keeps deletes
    exact keeps allowed final (deletes ▸ here)
  · intro keeps _ last same
    cases here.symm.trans same
    exact keeps rfl

theorem final_keeps_iff (fs : FileSystem) (keys : List UInt16) (final : List UInt8) (func : Handler) (other : func ≠ .cmdSudo)
    (root : ascii "root" ∈ userNames fs) :
    KeepsUser fs ⟨func, final, keys⟩ ↔ (func = .cmdUserdel → userToken final ≠ fs.currentUser) := by
  rw [KeepsUser]
  split
  · rename_i deletes
    exact ⟨fun kept _ => kept, fun kept => kept deletes⟩
  · rename_i leaves
    exact iff_of_true root fun deletes => nomatch leaves.symm.trans deletes
  · rename_i nested
    exact absurd nested other
  · rename_i notUserdel _ _
    exact iff_of_true trivial fun deletes => absurd deletes notUserdel

theorem sudo_step (args : List UInt8) (keys : List UInt16) (fs next : FileSystem) (ok : SessionOk fs)
    (outcome : SudoOutcome args.length args keys fs next) :
    (next.currentUser ∈ userNames next ↔ KeepsUser fs ⟨.cmdSudo, args, keys⟩) ∧
      next.currentUser.length ≤ 31 ∧ next.currentUser ≠ [] := by
  cases outcome with
  | idle names user nothing =>
      rw [user, names]
      refine ⟨iff_of_true ok.known fun allowed last same => ?_, ok.short, ok.named⟩
      rw [nothing allowed] at same
      cases same
  | direct func final root here other change =>
      obtain ⟨kept, short, named⟩ := change_kept func final keys fs next change ok other
      refine ⟨?_, short, named⟩
      rw [kept, final_keeps_iff fs keys final func other (root ▸ ok.known)]
      exact (sudo_keeps_iff fs keys _ args final func (Or.inl root) here).symm
  | raised func final inner allowed here change names user =>
      rw [user, names, change_known func final (becomeRoot fs) inner change ok.distinct fs.currentUser ok.named ok.known]
      exact ⟨(sudo_keeps_iff fs keys _ args final func allowed here).symm, ok.short, ok.named⟩

theorem session_step (op : SessionOp) (fs next : FileSystem) (ok : SessionOk fs) (taken : SessionStep others fs op next) :
    (next.currentUser ∈ userNames next ↔ KeepsUser fs op) ∧ next.currentUser.length ≤ 31 ∧ next.currentUser ≠ [] := by
  obtain ⟨_, result, returned⟩ := taken
  obtain ⟨func, args, keys⟩ := op
  rw [sessionReply] at returned
  split at returned
  · rename_i nested
    have nested : func = .cmdSudo := nested
    rw [nested]
    exact sudo_step args keys fs next ok
      (sudo_outcome others args.length args (Nat.le_refl _) keys fs next ok.short result returned)
  · rename_i other
    exact change_kept func args keys fs next (handler_change others func args fs next keys result returned) ok other

theorem session_distinct (op : SessionOp) (fs next : FileSystem) (distinct : (userNames fs).Nodup)
    (short : fs.currentUser.length ≤ 31) (taken : SessionStep others fs op next) :
    (userNames next).Nodup ∧ next.currentUser.length ≤ 31 := by
  obtain ⟨_, result, returned⟩ := taken
  have kept (func : Handler) (args : List UInt8) (change : AccountChange func args fs next) :
      (userNames next).Nodup ∧ next.currentUser.length ≤ 31 := by
    refine ⟨change_distinct func args fs next change distinct, ?_⟩
    cases change with
    | same _ user _ _ => exact user ▸ short
    | added _ _ _ user _ => exact user ▸ short
    | removed _ user _ _ => exact user ▸ short
    | entered _ user _ _ _ => exact user ▸ user_token_short args
    | left _ user _ => exact user ▸ (by decide)
  rw [sessionReply] at returned
  split at returned
  · cases sudo_outcome others op.args.length op.args (Nat.le_refl _) op.keys fs next short result returned with
    | idle names user _ => exact ⟨names ▸ distinct, user ▸ short⟩
    | direct func final _ _ _ change => exact kept func final change
    | raised func final inner _ _ change names user =>
        exact ⟨names ▸ change_distinct func final (becomeRoot fs) inner change distinct, user ▸ short⟩
  · exact kept op.func op.args (handler_change others op.func op.args fs next op.keys result returned)

theorem accounts_stay (fs : FileSystem) (run : Run BootState (SessionStep others) (fun _ _ => True) fs) :
    (userNames fs).Nodup ∧
      (Run BootState (SessionStep others) KeepsUser fs → fs.currentUser ∈ userNames fs ∧
        ∀ op next, SessionStep others fs op next → (next.currentUser ∈ userNames next ↔ KeepsUser fs op)) := by
  have distinct := run_invariant (fun fs => (userNames fs).Nodup ∧ fs.currentUser.length ≤ 31)
    (fun fs boot => ⟨(boot_session_ok fs boot).distinct, (boot_session_ok fs boot).short⟩)
    (fun fs next op inv _ taken => session_distinct others op fs next inv.1 inv.2 taken) fs run
  refine ⟨distinct.1, fun kept => ?_⟩
  have ok := run_invariant SessionOk boot_session_ok
    (fun fs next op ok keeps taken => by
      obtain ⟨known, short, named⟩ := session_step others op fs next ok taken
      exact ⟨(session_distinct others op fs next ok.distinct ok.short taken).1, known.mpr keeps, short, named⟩) fs kept
  exact ⟨ok.known, fun op next taken => (session_step others op fs next ok taken).1⟩
end

def inert : Others := fun _ _ _ _ => none

def rootAtWork : FileSystem := becomeRoot bobAtWork

theorem root_at_work_boots : BootState rootAtWork := ⟨by decide, by decide, rfl⟩

def loginBob : SessionOp := ⟨.cmdLogin, ascii "bob", []⟩

theorem bob_logs_in (guard : FileSystem → SessionOp → Prop) (admitted : guard rootAtWork loginBob) :
    Run BootState (SessionStep inert) guard bobAtWork :=
  .step rootAtWork bobAtWork loginBob (.start _ root_at_work_boots) admitted ⟨by decide, 0, by decide +kernel⟩

theorem accounts_stay_sudo : (userNames bobAtWork).Nodup ∧ bobAtWork.currentUser ∈ userNames bobAtWork := by
  have op : SessionStep inert bobAtWork ⟨.cmdSudo, ascii "LOGIN root", [97, 13]⟩ bobAtWork :=
    ⟨by decide, 0, by decide +kernel⟩
  have free : Run BootState (SessionStep inert) (fun _ _ => True) bobAtWork :=
    .step _ _ _ (bob_logs_in (fun _ _ => True) trivial) trivial op
  have keeps : KeepsUser bobAtWork ⟨.cmdSudo, ascii "LOGIN root", [97, 13]⟩ := by
    intro _ args same
    have last : finalCommand (ascii "LOGIN root").length (ascii "LOGIN root") = some (.cmdLogin, ascii " root") := by
      decide +kernel
    cases last.symm.trans same
  obtain ⟨distinct, kept⟩ := accounts_stay inert bobAtWork free
  exact ⟨distinct, (kept (.step _ _ _ (bob_logs_in KeepsUser trivial) keeps op)).1⟩

-- The account of the session is deleted like any other.
theorem accounts_do_not_stay : ¬ ∀ others fs, Run BootState (SessionStep others) (fun _ _ => True) fs →
    (userNames fs).Nodup ∧ fs.currentUser ∈ userNames fs := by
  intro claimed
  have removed : SessionStep inert rootAtWork ⟨.cmdUserdel, ascii "root", []⟩
      { rootAtWork with userTable := rootAtWork.userTable.eraseIdx 0 } := ⟨by decide, 0, by decide +kernel⟩
  have known := (claimed inert _ (.step _ _ _ (.start _ root_at_work_boots) trivial removed)).2
  exact absurd known (by decide +kernel)

end RoDos.Shell
