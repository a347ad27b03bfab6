import RoDos.Base.Substrings
import RoDos.Utils.Strtok

set_option autoImplicit false

namespace RoDos.Utils

open Base

-- while (*h && *n && (*h == *n)) { h++; n++; }
-- What is left of the needle behind the loop.
def needleLeft : List UInt8 → List UInt8 → List UInt8
  | h :: haystack, n :: needle => if h ≠ 0 ∧ n ≠ 0 ∧ h = n then needleLeft haystack needle else n :: needle
  | _, needle => needle

def strstrLoop (needle : List UInt8) : List UInt8 → Nat → Nat
  | [], _ => 0
  | byte :: rest, p =>
      if byte = 0 then 0
      else if (needleLeft (byte :: rest) needle).headD 0 = 0 then p
      else strstrLoop needle rest (p + 1)

def strstr (memory : List UInt8) (haystack needle : Nat) : Nat :=
  if haystack = 0 ∨ needle = 0 then 0
  else if byteAt memory needle = 0 then haystack
  else strstrLoop (memory.drop needle) (memory.drop haystack) haystack

def lastChar (c : UInt8) : List UInt8 → Nat → Nat → Nat
  | [], _, last => last
  | byte :: rest, p, last =>
      if byte = 0 then (if c = 0 then p else last) else lastChar c rest (p + 1) (if byte = c then p else last)

def strrchr (memory : List UInt8) (str : Nat) (c : UInt8) : Nat :=
  if str = 0 then 0 else lastChar c (memory.drop str) str 0

-- memchr stops after n bytes, not at a NUL.
def findByte (value : UInt8) : List UInt8 → Nat → Nat → Nat
  | _, 0, _ => 0
  | [], _ + 1, _ => 0
  | byte :: rest, n + 1, p => if byte = value then p else findByte value rest n (p + 1)

def memchr (memory : List UInt8) (ptr : Nat) (value : UInt8) (n : Nat) : Nat :=
  if ptr = 0 then 0 else findByte value (memory.drop ptr) n ptr

-- The difference of the bytes at which a comparison ends.
def byteDifference (a b : UInt8) : Int := (a.toNat : Int) - b.toNat

-- while (*s1 && (*s1 == *s2)) { s1++; s2++; }
def strcmpLoop : List UInt8 → List UInt8 → Int
  | a :: s1, b :: s2 => if a ≠ 0 ∧ a = b then strcmpLoop s1 s2 else byteDifference a b
  | s1, s2 => byteDifference (s1.headD 0) (s2.headD 0)

def strcmp (memory : List UInt8) (s1 s2 : Nat) : Int :=
  if s1 = 0 ∨ s2 = 0 then 0 else strcmpLoop (memory.drop s1) (memory.drop s2)

def strncmpLoop : Nat → List UInt8 → List UInt8 → Int
  | 0, _, _ => 0
  | n + 1, a :: s1, b :: s2 => if a ≠ 0 ∧ a = b then strncmpLoop n s1 s2 else byteDifference a b
  | _ + 1, s1, s2 => byteDifference (s1.headD 0) (s2.headD 0)

def strncmp (memory : List UInt8) (s1 s2 n : Nat) : Int :=
  if s1 = 0 ∨ s2 = 0 ∨ n = 0 then 0 else strncmpLoop n (memory.drop s1) (memory.drop s2)

def memcmpLoop : Nat → List UInt8 → List UInt8 → Int
  | 0, _, _ => 0
  | n + 1, a :: s1, b :: s2 => if a ≠ b then byteDifference a b else memcmpLoop n s1 s2
  | _ + 1, s1, s2 => byteDifference (s1.headD 0) (s2.headD 0)

def memcmp (memory : List UInt8) (s1 s2 n : Nat) : Int :=
  if s1 = 0 ∨ s2 = 0 then 0 else memcmpLoop n (memory.drop s1) (memory.drop s2)

theorem drop_terminated (memory : List UInt8) (p : Nat) (terminated : TerminatedAt memory p) :
    ∃ rest, memory.drop p = textAt memory p ++ 0 :: rest := by
  have split := reads_drop memory p _ (reads_text memory p terminated)
  rw [List.append_assoc, List.singleton_append] at split
  exact ⟨_, split⟩

theorem needle_used_iff (needle haystack behind rest : List UInt8) (solid : ∀ byte ∈ needle, byte ≠ 0)
    (noNul : ∀ byte ∈ haystack, byte ≠ 0) :
    (needleLeft (haystack ++ 0 :: behind) (needle ++ 0 :: rest)).headD 0 = 0 ↔ needle <+: haystack := by
  induction needle generalizing haystack with
  | nil =>
      have ends : needleLeft (haystack ++ 0 :: behind) (0 :: rest) = 0 :: rest := by
        cases haystack with
        | nil => exact if_neg fun all => all.1 rfl
        | cons h haystack => exact if_neg fun all => all.2.1 rfl
      rw [List.nil_append, ends]
      exact iff_of_true rfl List.nil_prefix
  | cons n needle ih =>
      have some' := solid n List.mem_cons_self
      cases haystack with
      | nil =>
          rw [List.nil_append, List.cons_append, needleLeft, if_neg fun all => all.1 rfl]
          exact iff_of_false some' fun starts => List.cons_ne_nil n needle (List.prefix_nil.mp starts)
      | cons h haystack =>
          rw [List.cons_append, List.cons_append, needleLeft, List.cons_prefix_cons]
          by_cases same : h = n
          · rw [if_pos ⟨noNul h List.mem_cons_self, some', same⟩,
              ih haystack (fun byte member => solid byte (List.mem_cons_of_mem _ member))
                (fun byte member => noNul byte (List.mem_cons_of_mem _ member))]
            exact (and_iff_right same.symm).symm
          · rw [if_neg fun all => same all.2.2]
            exact iff_of_false some' fun both => same both.1.symm

theorem strstr_loop_finds (needle haystack behind rest : List UInt8) (some' : needle ≠ []) (solid : ∀ byte ∈ needle, byte ≠ 0)
    (noNul : ∀ byte ∈ haystack, byte ≠ 0) (p : Nat) :
    strstrLoop (needle ++ 0 :: rest) (haystack ++ 0 :: behind) p =
      match findSub needle haystack with
      | some i => p + i
      | none => 0 := by
  induction haystack generalizing p with
  | nil =>
      rw [findSub, if_neg some']
      exact if_pos rfl
  | cons h haystack ih =>
      have used := needle_used_iff needle (h :: haystack) behind rest solid noNul
      rw [List.cons_append] at used ⊢
      rw [strstrLoop, if_neg (noNul h List.mem_cons_self), findSub]
      by_cases here : needle <+: h :: haystack
      · rw [if_pos (used.mpr here), if_pos (List.isPrefixOf_iff_prefix.mpr here)]
        rfl
      · rw [if_neg fun starts => here (used.mp starts), if_neg fun starts => here (List.isPrefixOf_iff_prefix.mp starts),
          ih fun byte member => noNul byte (List.mem_cons_of_mem _ member)]
        cases findSub needle haystack with
        | none => rfl
        | some i => exact (Nat.add_assoc p 1 i).trans (congrArg (p + ·) (Nat.add_comm 1 i))

theorem strstr_finds (memory : List UInt8) (haystack needle : Nat) (placed : haystack ≠ 0 ∧ needle ≠ 0)
    (terminated : TerminatedAt memory haystack ∧ TerminatedAt memory needle) :
    strstr memory haystack needle =
      match findSub (textAt memory needle) (textAt memory haystack) with
      | some i => haystack + i
      | none => 0 := by
  obtain ⟨behind, hay⟩ := drop_terminated memory haystack terminated.1
  obtain ⟨rest, split⟩ := drop_terminated memory needle terminated.2
  have first : byteAt memory needle = (textAt memory needle ++ 0 :: rest).headD 0 := by
    rw [← split, byteAt, List.headD_eq_head?_getD, List.head?_drop, List.getD_eq_getElem?_getD]
  rw [strstr, if_neg (not_or.mpr placed), first]
  cases text : textAt memory needle with
  | nil =>
      have ends : ([] ++ 0 :: rest).headD (0 : UInt8) = 0 := rfl
      rw [if_pos ends, (find_sub_some_iff [] _ 0).mpr (first_at_zero _ _ List.nil_prefix)]
      rfl
  | cons n own =>
      have solid := text_no_nul memory needle
      rw [text] at solid
      rw [if_neg (show (n :: own ++ (0 : UInt8) :: rest).headD 0 ≠ 0 from solid n List.mem_cons_self), split, hay, text]
      exact strstr_loop_finds (n :: own) _ behind rest (List.cons_ne_nil n own) solid (text_no_nul memory haystack) haystack

theorem strstr_first (memory : List UInt8) (haystack needle : Nat) (placed : haystack ≠ 0 ∧ needle ≠ 0)
    (terminated : TerminatedAt memory haystack ∧ TerminatedAt memory needle) :
    (∀ i, strstr memory haystack needle = haystack + i ↔ FirstAt (textAt memory needle) (textAt memory haystack) i) ∧
      (strstr memory haystack needle = 0 ↔ ¬ textAt memory needle <:+: textAt memory haystack) := by
  rw [strstr_finds memory haystack needle placed terminated, ← find_sub_none_iff]
  cases found : findSub (textAt memory needle) (textAt memory haystack) with
  | none =>
      refine ⟨fun i => iff_of_false (show ¬ 0 = haystack + i by omega) fun first => ?_, iff_of_true rfl rfl⟩
      rw [(find_sub_some_iff _ _ i).mpr first] at found
      cases found
  | some j =>
      refine ⟨fun i => ?_, iff_of_false (show ¬ haystack + j = 0 by omega) (Option.some_ne_none j)⟩
      rw [← find_sub_some_iff, found, Option.some_inj]
      exact Nat.add_left_cancel_iff

def sampleStrings : List UInt8 := [0xFF, 97, 98, 97, 98, 99, 0, 97, 98, 99, 0]

theorem strstr_first_sample : strstr sampleStrings 1 7 = 1 + 2 :=
  ((strstr_first sampleStrings 1 7 (by decide) (by decide)).1 2).mpr ⟨by decide, by decide⟩

structure LastAt (c : UInt8) (text : List UInt8) (i : Nat) : Prop where
  here : text[i]? = some c
  later : ∀ j, i < j → text[j]? ≠ some c

theorem last_char_ends (c : UInt8) (some' : c ≠ 0) (text rest : List UInt8) (noNul : ∀ byte ∈ text, byte ≠ 0) (p last : Nat) :
    (c ∉ text ∧ lastChar c (text ++ 0 :: rest) p last = last) ∨
      ∃ i, LastAt c text i ∧ lastChar c (text ++ 0 :: rest) p last = p + i := by
  induction text generalizing p last with
  | nil =>
      refine Or.inl ⟨List.not_mem_nil, ?_⟩
      rw [List.nil_append, lastChar, if_pos rfl, if_neg some']
  | cons byte text ih =>
      rw [List.cons_append, lastChar, if_neg (noNul byte List.mem_cons_self)]
      rcases ih (fun own member => noNul own (List.mem_cons_of_mem _ member)) (p + 1) (if byte = c then p else last) with
        ⟨absent, same⟩ | ⟨i, found, same⟩
      · rw [same]
        by_cases here : byte = c
        · refine Or.inr ⟨0, ⟨congrArg some here, fun j later again => ?_⟩, if_pos here⟩
          obtain ⟨k, rfl⟩ := Nat.exists_eq_add_of_lt later
          rw [Nat.zero_add, List.getElem?_cons_succ] at again
          exact absent (List.mem_of_getElem? again)
        · refine Or.inl ⟨fun member => ?_, if_neg here⟩
          exact (List.mem_cons.mp member).elim (fun equal => here equal.symm) absent
      · refine Or.inr ⟨i + 1, ⟨found.here, fun j later => ?_⟩, by rw [same]; omega⟩
        obtain ⟨k, rfl⟩ : ∃ k, j = k + 1 := ⟨j - 1, by omega⟩
        exact found.later k (by omega)

theorem strrchr_last (memory : List UInt8) (str : Nat) (c : UInt8) (placed : str ≠ 0) (terminated : TerminatedAt memory str)
    (some' : c ≠ 0) :
    (∀ i, strrchr memory str c = str + i ↔ LastAt c (textAt memory str) i) ∧ (strrchr memory str c = 0 ↔ c ∉ textAt memory str) := by
  obtain ⟨rest, split⟩ := drop_terminated memory str terminated
  have unique : ∀ text i j, LastAt c text i → LastAt c text j → i = j := by
    intro text i j first other
    rcases Nat.lt_trichotomy i j with below | same | above
    · exact absurd other.here (first.later j below)
    · exact same
    · exact absurd first.here (other.later i above)
  rw [strrchr, if_neg placed, split]
  rcases last_char_ends c some' (textAt memory str) rest (text_no_nul memory str) str 0 with ⟨absent, same⟩ | ⟨j, found, same⟩
  · rw [same]
    exact ⟨fun i => iff_of_false (by omega) fun first => absent (List.mem_of_getElem? first.here), iff_of_true rfl absent⟩
  · rw [same]
    refine ⟨fun i => ⟨fun equal => ?_, fun first => congrArg (str + ·) (unique _ j i found first)⟩,
      iff_of_false (by omega) (not_not.mpr (List.mem_of_getElem? found.here))⟩
    rw [← Nat.add_left_cancel equal]
    exact found

structure Orders (d : Int) (a b : List UInt8) : Prop where
  less : d < 0 ↔ a < b
  same : d = 0 ↔ a = b
  more : 0 < d ↔ b < a

theorem byte_difference_sign (a b : UInt8) :
    (byteDifference a b < 0 ↔ a < b) ∧ (byteDifference a b = 0 ↔ a = b) ∧ (0 < byteDifference a b ↔ b < a) := by
  rw [byteDifference, UInt8.lt_iff_toNat_lt, UInt8.lt_iff_toNat_lt, ← UInt8.toNat_inj]
  omega

theorem orders_nil : Orders 0 [] [] := by
  have never : ¬ ([] : List UInt8) < [] := List.not_lt_nil []
  exact ⟨iff_of_false (Int.lt_irrefl 0) never, iff_of_true rfl rfl, iff_of_false (Int.lt_irrefl 0) never⟩

theorem orders_step (a : UInt8) (s1 s2 : List UInt8) (d : Int) (orders : Orders d s1 s2) : Orders d (a :: s1) (a :: s2) := by
  have self : ¬ a < a := UInt8.lt_irrefl a
  refine ⟨orders.less.trans ?_, orders.same.trans ?_, orders.more.trans ?_⟩
  · rw [List.cons_lt_cons_iff]
    exact ⟨fun less => Or.inr ⟨rfl, less⟩, fun either => either.elim (fun less => absurd less self) And.right⟩
  · rw [List.cons_inj_right]
  · rw [List.cons_lt_cons_iff]
    exact ⟨fun less => Or.inr ⟨rfl, less⟩, fun either => either.elim (fun less => absurd less self) And.right⟩

theorem orders_differ (a b : UInt8) (s1 s2 : List UInt8) (apart : a ≠ b) : Orders (byteDifference a b) (a :: s1) (b :: s2) := by
  obtain ⟨less, same, more⟩ := byte_difference_sign a b
  refine ⟨less.trans ?_, same.trans ?_, more.trans ?_⟩
  · rw [List.cons_lt_cons_iff]
    exact ⟨Or.inl, fun either => either.elim id fun both => absurd both.1 apart⟩
  · exact iff_of_false apart fun both => apart (List.cons.inj both).1
  · rw [List.cons_lt_cons_iff]
    exact ⟨Or.inl, fun either => either.elim id fun both => absurd both.1.symm apart⟩

theorem orders_ended (b : UInt8) (s2 : List UInt8) (some' : b ≠ 0) :
    Orders (byteDifference 0 b) [] (b :: s2) ∧ Orders (byteDifference b 0) (b :: s2) [] := by
  obtain ⟨less, same, more⟩ := byte_difference_sign 0 b
  obtain ⟨less', same', more'⟩ := byte_difference_sign b 0
  have positive : (0 : UInt8) < b := UInt8.pos_iff_ne_zero.mpr some'
  have never : ¬ b < 0 := UInt8.not_lt_zero
  have before : [] < b :: s2 := List.nil_lt_cons b s2
  have after : ¬ b :: s2 < [] := List.not_lt_nil _
  exact ⟨⟨less.trans (iff_of_true positive before), same.trans (iff_of_false some'.symm (List.cons_ne_nil b s2).symm),
      more.trans (iff_of_false never after)⟩,
    ⟨less'.trans (iff_of_false never after), same'.trans (iff_of_false some' (List.cons_ne_nil b s2)),
      more'.trans (iff_of_true positive before)⟩⟩

theorem strncmp_loop_orders (n : Nat) (s1 s2 rest1 rest2 : List UInt8) (noNul1 : ∀ byte ∈ s1, byte ≠ 0)
    (noNul2 : ∀ byte ∈ s2, byte ≠ 0) :
    Orders (strncmpLoop n (s1 ++ 0 :: rest1) (s2 ++ 0 :: rest2)) (s1.take n) (s2.take n) := by
  induction n generalizing s1 s2 with
  | zero =>
      rw [strncmpLoop, List.take_zero, List.take_zero]
      exact orders_nil
  | succ n ih =>
      cases s1 with
      | nil =>
          cases s2 with
          | nil =>
              rw [List.nil_append, List.nil_append, strncmpLoop, if_neg fun both => both.1 rfl]
              exact orders_nil
          | cons b s2 =>
              rw [List.nil_append, List.cons_append, strncmpLoop, if_neg fun both => both.1 rfl]
              exact (orders_ended b _ (noNul2 b List.mem_cons_self)).1
      | cons a s1 =>
          have some' := noNul1 a List.mem_cons_self
          cases s2 with
          | nil =>
              rw [List.nil_append, List.cons_append, strncmpLoop, if_neg fun both => some' both.2]
              exact (orders_ended a _ some').2
          | cons b s2 =>
              rw [List.cons_append, List.cons_append, strncmpLoop, List.take_succ_cons, List.take_succ_cons]
              by_cases same : a = b
              · rw [if_pos ⟨some', same⟩, ← same]
                exact orders_step a _ _ _ (ih s1 s2 (fun byte member => noNul1 byte (List.mem_cons_of_mem _ member))
                  fun byte member => noNul2 byte (List.mem_cons_of_mem _ member))
              · rw [if_neg fun both => same both.2]
                exact orders_differ a b _ _ same

theorem strncmp_loop_long (n : Nat) (s1 s2 rest1 rest2 : List UInt8) (long : s1.length < n) :
    strncmpLoop n (s1 ++ 0 :: rest1) (s2 ++ 0 :: rest2) = strcmpLoop (s1 ++ 0 :: rest1) (s2 ++ 0 :: rest2) := by
  induction n generalizing s1 s2 with
  | zero => exact absurd long (Nat.not_lt_zero _)
  | succ n ih =>
      cases s1 with
      | nil =>
          cases s2 with
          | nil => exact (if_neg fun both => both.1 rfl).trans (if_neg fun both => both.1 rfl).symm
          | cons b s2 => exact (if_neg fun both => both.1 rfl).trans (if_neg fun both => both.1 rfl).symm
      | cons a s1 =>
          rw [List.length_cons] at long
          cases s2 with
          | nil =>
              rw [List.cons_append, List.nil_append, strncmpLoop, strcmpLoop]
              by_cases both : a ≠ 0 ∧ a = 0
              · exact absurd both.2 both.1
              · rw [if_neg both, if_neg both]
          | cons b s2 =>
              rw [List.cons_append, List.cons_append, strncmpLoop, strcmpLoop, ih s1 s2 (by omega)]

theorem memcmp_loop_orders (n : Nat) (s1 s2 : List UInt8) (room1 : n ≤ s1.length) (room2 : n ≤ s2.length) :
    Orders (memcmpLoop n s1 s2) (s1.take n) (s2.take n) := by
  induction n generalizing s1 s2 with
  | zero =>
      rw [memcmpLoop, List.take_zero, List.take_zero]
      exact orders_nil
  | succ n ih =>
      obtain ⟨a, s1, rfl⟩ := List.exists_cons_of_length_pos (Nat.lt_of_lt_of_le (Nat.succ_pos n) room1)
      obtain ⟨b, s2, rfl⟩ := List.exists_cons_of_length_pos (Nat.lt_of_lt_of_le (Nat.succ_pos n) room2)
      rw [memcmpLoop, List.take_succ_cons, List.take_succ_cons]
      by_cases same : a = b
      · rw [if_neg (not_not.mpr same), ← same]
        exact orders_step a _ _ _ (ih s1 s2 (Nat.le_of_succ_le_succ room1) (Nat.le_of_succ_le_succ room2))
      · rw [if_pos same]
        exact orders_differ a b _ _ same

theorem comparisons_order (memory : List UInt8) (s1 s2 n : Nat) (placed : s1 ≠ 0 ∧ s2 ≠ 0)
    (terminated : TerminatedAt memory s1 ∧ TerminatedAt memory s2) (room : s1 + n ≤ memory.length ∧ s2 + n ≤ memory.length) :
    Orders (strcmp memory s1 s2) (textAt memory s1) (textAt memory s2) ∧
      Orders (strncmp memory s1 s2 n) ((textAt memory s1).take n) ((textAt memory s2).take n) ∧
      Orders (memcmp memory s1 s2 n) ((memory.drop s1).take n) ((memory.drop s2).take n) := by
  obtain ⟨rest1, split1⟩ := drop_terminated memory s1 terminated.1
  obtain ⟨rest2, split2⟩ := drop_terminated memory s2 terminated.2
  have noNul1 := text_no_nul memory s1
  have noNul2 := text_no_nul memory s2
  refine ⟨?_, ?_, ?_⟩
  · have orders := strncmp_loop_orders ((textAt memory s1).length + (textAt memory s2).length + 1) _ _ rest1 rest2 noNul1 noNul2
    rw [strncmp_loop_long _ _ _ _ _ (by omega), List.take_of_length_le (by omega), List.take_of_length_le (by omega)] at orders
    rw [strcmp, if_neg (not_or.mpr placed), split1, split2]
    exact orders
  · rw [strncmp]
    by_cases zero : n = 0
    · rw [if_pos (Or.inr (Or.inr zero)), zero, List.take_zero, List.take_zero]
      exact orders_nil
    · rw [if_neg (not_or.mpr ⟨placed.1, not_or.mpr ⟨placed.2, zero⟩⟩), split1, split2]
      exact strncmp_loop_orders n _ _ rest1 rest2 noNul1 noNul2
  · rw [memcmp, if_neg (not_or.mpr placed)]
    exact memcmp_loop_orders n _ _ (by rw [List.length_drop]; omega) (by rw [List.length_drop]; omega)

theorem comparisons_order_sample :
    Orders (strcmp sampleStrings 1 7) [97, 98, 97, 98, 99] [97, 98, 99] ∧ Orders (strncmp sampleStrings 1 7 2) [97, 98] [97, 98] ∧
      Orders (memcmp sampleStrings 1 7 2) [97, 98] [97, 98] :=
  comparisons_order sampleStrings 1 7 2 (by decide) (by decide) (by decide)

theorem find_byte_first (value : UInt8) (bytes : List UInt8) (n p : Nat) :
    findByte value bytes n p =
      match (bytes.take n).findIdx? fun byte => byte = value with
      | some i => p + i
      | none => 0 := by
  induction bytes generalizing n p with
  | nil =>
      rw [List.take_nil]
      cases n with
      | zero => rfl
      | succ n => rfl
  | cons byte rest ih =>
      cases n with
      | zero => rfl
      | succ n =>
          rw [findByte, List.take_succ_cons, List.findIdx?_cons, ih n (p + 1)]
          by_cases here : byte = value
          · rw [if_pos here, if_pos (decide_eq_true here)]
            rfl
          · rw [if_neg here, if_neg (by simpa using here)]
            cases (rest.take n).findIdx? fun byte => byte = value with
            | none => rfl
            | some i => exact (Nat.add_assoc p 1 i).trans (congrArg (p + ·) (Nat.add_comm 1 i))

theorem memchr_null_iff (memory : List UInt8) (ptr : Nat) (value : UInt8) (n : Nat) (placed : ptr ≠ 0) :
    memchr memory ptr value n = 0 ↔ value ∉ (memory.drop ptr).take n := by
  rw [memchr, if_neg placed, find_byte_first]
  cases found : ((memory.drop ptr).take n).findIdx? fun byte => byte = value with
  | none =>
      rw [List.findIdx?_eq_none_iff] at found
      exact iff_of_true rfl fun member => of_decide_eq_false (found value member) rfl
  | some i =>
      obtain ⟨inside, here, -⟩ := List.findIdx?_eq_some_iff_getElem.mp found
      refine iff_of_false (show ¬ ptr + i = 0 by omega) (not_not.mpr ?_)
      rw [← of_decide_eq_true here]
      exact List.getElem_mem inside

end RoDos.Utils
