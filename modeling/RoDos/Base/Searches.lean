import Mathlib.Tactic.Common

set_option autoImplicit false

namespace Base

section
variable {α : Type} (ends dead hit : α → Bool)

-- The index of the first hit that is not dead, in front of the first element that ends the list.
def firstHit (entries : List α) : Option Nat :=
  (entries.takeWhile fun entry => !ends entry).findIdx? fun entry => !dead entry && hit entry

def live (entries : List α) : List α := (entries.takeWhile fun entry => !ends entry).filter fun entry => !dead entry

theorem first_hit_cons (entry : α) (rest : List α) : firstHit ends dead hit (entry :: rest) =
    if ends entry then none
    else if !dead entry && hit entry then some 0
    else (firstHit ends dead hit rest).map (· + 1) := by
  rw [firstHit, List.takeWhile_cons]
  cases ends entry with
  | true => rfl
  | false => exact List.findIdx?_cons

theorem live_cons (entry : α) (rest : List α) : live ends dead (entry :: rest) =
    if ends entry then [] else if dead entry then live ends dead rest else entry :: live ends dead rest := by
  rw [live, List.takeWhile_cons]
  cases ends entry with
  | true => rfl
  | false =>
      cases killed : dead entry with
      | true => exact List.filter_cons_of_neg (by simp [killed])
      | false => exact List.filter_cons_of_pos (by simp [killed])

theorem live_append (front back : List α) :
    live ends dead (front ++ back) = live ends dead front ++ if front.any ends then [] else live ends dead back := by
  induction front with
  | nil => simp [live]
  | cons entry rest ih =>
      rw [List.cons_append, live_cons, live_cons, ih, List.any_cons]
      cases ends entry with
      | true => rfl
      | false => cases dead entry <;> rfl

theorem first_hit_append (front back : List α) : firstHit ends dead hit (front ++ back) =
    match firstHit ends dead hit front with
    | some k => some k
    | none => if front.any ends then none else (firstHit ends dead hit back).map (· + front.length) := by
  induction front with
  | nil => simp [firstHit]
  | cons entry rest ih =>
      rw [List.cons_append, first_hit_cons, first_hit_cons, ih, List.any_cons]
      cases ends entry with
      | true => rfl
      | false =>
          cases !dead entry && hit entry with
          | true => rfl
          | false =>
              cases firstHit ends dead hit rest with
              | some k => rfl
              | none =>
                  cases rest.any ends with
                  | true => rfl
                  | false =>
                      cases firstHit ends dead hit back with
                      | none => rfl
                      | some k => exact congrArg some (Nat.add_assoc k rest.length 1)

theorem first_hit_found (entries : List α) (k : Nat) (found : firstHit ends dead hit entries = some k) :
    ∃ entry, entries[k]? = some entry ∧ dead entry = false ∧ hit entry = true := by
  induction entries generalizing k with
  | nil => cases found
  | cons entry rest ih =>
      rw [first_hit_cons] at found
      split at found
      · cases found
      · split at found
        · rename_i both
          cases found
          obtain ⟨alive, hits⟩ := Bool.and_eq_true_iff.mp both
          exact ⟨entry, rfl, by simpa using alive, hits⟩
        · obtain ⟨before, earlier, rfl⟩ := Option.map_eq_some_iff.mp found
          exact ih before earlier

theorem shifted_eq_iff (a b : Option Nat) : a.map (· + 1) = b.map (· + 1) ↔ a = b :=
  (Option.map_injective fun _ _ same => Nat.add_right_cancel same).eq_iff

theorem zero_not_shifted (a : Option Nat) : some 0 ≠ a.map (· + 1) := by
  cases a <;> simp

theorem first_hits_agree (other : α → Bool) (entries : List α) :
    firstHit ends dead hit entries = firstHit ends dead other entries ↔
      ∀ entry ∈ (live ends dead entries).find? fun entry => hit entry || other entry, hit entry = true ∧ other entry = true := by
  induction entries with
  | nil => simp [firstHit, live]
  | cons entry rest ih =>
      rw [first_hit_cons, first_hit_cons, live_cons]
      cases ends entry with
      | true => simp
      | false =>
          cases dead entry with
          | true =>
              simp only [Bool.not_true, Bool.false_and, Bool.false_eq_true, if_false, if_true]
              rw [← ih]
              exact shifted_eq_iff _ _
          | false =>
              simp only [Bool.false_eq_true, if_false, List.find?_cons]
              cases hits : hit entry with
              | true =>
                  cases others : other entry with
                  | true => simp [hits, others]
                  | false => exact iff_of_false (zero_not_shifted _) (by simp [hits, others])
              | false =>
                  cases others : other entry with
                  | true => exact iff_of_false (zero_not_shifted _).symm (by simp [hits, others])
                  | false =>
                      simp only [Bool.and_false, Bool.false_eq_true, if_false, Bool.or_false]
                      rw [← ih]
                      exact shifted_eq_iff _ _
end

inductive Lookup where
  | found (index : Nat)
  | missing
  | failed
deriving DecidableEq, Repr

def Lookup.shift (count : Nat) : Lookup → Lookup
  | .found index => .found (index + count)
  | .missing => .missing
  | .failed => .failed

theorem Lookup.shift_failed_iff (count : Nat) (lookup : Lookup) : lookup.shift count = .failed ↔ lookup = .failed := by
  cases lookup <;> simp [shift]

section
variable {α β : Type} (fails : Nat → Bool) (ends dead hit : α → Bool) (entries : β → List α)

def lookUp : List β → Nat → Lookup
  | [], _ => .missing
  | page :: rest, reads =>
      if fails reads then .failed
      else
        match firstHit ends dead hit (entries page) with
        | some index => .found index
        | none => if (entries page).any ends then .missing else (lookUp rest (reads + 1)).shift (entries page).length

def pagesRead : List β → Nat → Nat
  | [], _ => 0
  | page :: rest, reads =>
      if fails reads then 1
      else
        match firstHit ends dead hit (entries page) with
        | some _ => 1
        | none => if (entries page).any ends then 1 else pagesRead rest (reads + 1) + 1

theorem look_up_failed_iff (pages : List β) (reads : Nat) :
    lookUp fails ends dead hit entries pages reads = .failed ↔
      ∃ k, reads ≤ k ∧ k < reads + pagesRead fails ends dead hit entries pages reads ∧ fails k = true := by
  induction pages generalizing reads with
  | nil =>
      refine iff_of_false (by simp [lookUp]) ?_
      rintro ⟨k, low, high, _⟩
      exact absurd high (Nat.not_lt.mpr low)
  | cons page rest ih =>
      rw [lookUp, pagesRead]
      cases status : fails reads with
      | true => exact iff_of_true rfl ⟨reads, Nat.le_refl _, Nat.lt_succ_self _, status⟩
      | false =>
          have succeeded : ¬ ∃ k, reads ≤ k ∧ k < reads + 1 ∧ fails k = true := by
            rintro ⟨k, low, high, failed⟩
            rw [Nat.le_antisymm (Nat.le_of_lt_succ high) low, status] at failed
            cases failed
          simp only [Bool.false_eq_true, if_false]
          cases firstHit ends dead hit (entries page) with
          | some index => exact iff_of_false (by simp) succeeded
          | none =>
              cases (entries page).any ends with
              | true => exact iff_of_false (by simp) succeeded
              | false =>
                  simp only [Bool.false_eq_true, if_false]
                  rw [Lookup.shift_failed_iff, ih]
                  constructor
                  · rintro ⟨k, low, high, failed⟩
                    exact ⟨k, by omega, by omega, failed⟩
                  · rintro ⟨k, low, high, failed⟩
                    rcases Nat.lt_or_ge k (reads + 1) with now | later
                    · exact absurd ⟨k, low, now, failed⟩ succeeded
                    · exact ⟨k, later, by omega, failed⟩

theorem look_up_succeeds (succeed : ∀ k, fails k = false) (pages : List β) (reads : Nat) :
    lookUp fails ends dead hit entries pages reads =
      match firstHit ends dead hit (pages.flatMap entries) with
      | some index => .found index
      | none => .missing := by
  induction pages generalizing reads with
  | nil => rfl
  | cons page rest ih =>
      rw [lookUp, succeed, List.flatMap_cons, first_hit_append, ih]
      cases firstHit ends dead hit (entries page) with
      | some index => rfl
      | none =>
          cases (entries page).any ends with
          | true => rfl
          | false => cases firstHit ends dead hit (rest.flatMap entries) <;> rfl

theorem look_up_found (pages : List β) (reads index : Nat)
    (found : lookUp fails ends dead hit entries pages reads = .found index) :
    firstHit ends dead hit (pages.flatMap entries) = some index := by
  induction pages generalizing reads index with
  | nil => cases found
  | cons page rest ih =>
      rw [lookUp] at found
      rw [List.flatMap_cons, first_hit_append]
      split at found
      · cases found
      · cases first : firstHit ends dead hit (entries page) with
        | some k =>
            rw [first] at found
            cases found
            rfl
        | none =>
            rw [first] at found
            dsimp only at found ⊢
            split at found
            · cases found
            · rename_i further
              rw [if_neg further]
              cases later : lookUp fails ends dead hit entries rest (reads + 1) with
              | found k =>
                  rw [later] at found
                  cases found
                  rw [ih (reads + 1) k later]
                  rfl
              | missing =>
                  rw [later] at found
                  cases found
              | failed =>
                  rw [later] at found
                  cases found
end

end Base
