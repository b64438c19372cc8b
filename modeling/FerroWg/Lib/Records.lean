import Mathlib.Data.List.Induction
import Mathlib.Data.List.Nodup

/-!
# Records in a list

An update goes to the first record that has its key, and to none where no record has it. Updates
with different keys commute, so a batch of them has no order.
-/

namespace FerroWg.Lib.Records

/-- How an update is put to a record. It leaves the key alone, and what it leaves does not depend
on what an earlier one with the same key left. -/
structure Update (α υ κ : Type) where
  key : α → κ
  name : υ → κ
  put : υ → α → α
  key_put : ∀ u a, key (put u a) = key a
  put_put : ∀ u a, put u (put u a) = put u a

namespace Update

variable {α υ κ : Type} [DecidableEq κ] (r : Update α υ κ)

def one (records : List α) (u : υ) : List α :=
  match records with
  | [] => []
  | a :: rest => if r.key a = r.name u then r.put u a :: rest else a :: one rest u

def batch (us : List υ) (records : List α) : List α := us.foldl r.one records

@[simp] theorem batch_cons (u : υ) (us : List υ) (records : List α) :
    r.batch (u :: us) records = r.batch us (r.one records u) := rfl

theorem batch_append (us vs : List υ) (records : List α) :
    r.batch (us ++ vs) records = r.batch vs (r.batch us records) := List.foldl_append

/-! ## One update -/

theorem one_keys (records : List α) (u : υ) : (r.one records u).map r.key = records.map r.key := by
  induction records with
  | nil => rfl
  | cons a rest ih =>
    rw [one]
    split
    · rw [List.map_cons, r.key_put, List.map_cons]
    · rw [List.map_cons, ih, List.map_cons]

/-- The name is of no record. -/
theorem one_unknown {records : List α} {u : υ} (unknown : r.name u ∉ records.map r.key) :
    r.one records u = records := by
  induction records with
  | nil => rfl
  | cons a rest ih =>
    rw [List.map_cons, List.mem_cons, not_or] at unknown
    obtain ⟨other, absent⟩ := unknown
    rw [one, if_neg (Ne.symm other), ih absent]

theorem one_comm {m n : υ} (different : r.name m ≠ r.name n) (records : List α) :
    r.one (r.one records m) n = r.one (r.one records n) m := by
  induction records with
  | nil => rfl
  | cons a rest ih =>
    by_cases first : r.key a = r.name m
    · simp only [one, first, r.key_put, different, if_true, if_false]
    · by_cases second : r.key a = r.name n
      · simp only [one, second, r.key_put, different.symm, if_true, if_false]
      · simp only [one, first, second, if_false, ih]

theorem one_one (records : List α) (u : υ) : r.one (r.one records u) u = r.one records u := by
  induction records with
  | nil => rfl
  | cons a rest ih =>
    by_cases here : r.key a = r.name u
    · simp only [one, here, r.key_put, r.put_put, if_true]
    · simp only [one, here, if_false, ih]

/-- A record of another name stays where it was, as it was, and so does one behind another of its
own name. -/
theorem one_getElem? {records : List α} {i : Nat} {a : α} (found : records[i]? = some a) {u : υ}
    (passed : r.key a ≠ r.name u ∨ r.key a ∈ (records.take i).map r.key) :
    (r.one records u)[i]? = some a := by
  induction records generalizing i with
  | nil => cases found
  | cons b rest ih =>
    rw [one]
    cases i with
    | zero =>
      rw [List.getElem?_cons_zero, Option.some.injEq] at found
      have other : r.key a ≠ r.name u := passed.resolve_right (by simp)
      rw [found, if_neg other, List.getElem?_cons_zero]
    | succ i =>
      rw [List.getElem?_cons_succ] at found
      split
      case isTrue here => rwa [List.getElem?_cons_succ]
      case isFalse notHere =>
        rw [List.getElem?_cons_succ]
        apply ih found
        rw [List.take_succ_cons, List.map_cons, List.mem_cons] at passed
        rcases passed with other | same | behind
        · exact .inl other
        · exact .inl (same ▸ notHere)
        · exact .inr behind

/-- The first record of a key. -/
def lookup (records : List α) (k : κ) : Option α := records.find? fun a => r.key a = k

/-- Of records with different keys, each is the one of its key. -/
theorem lookup_of_mem {records : List α} (distinct : (records.map r.key).Nodup) {a : α}
    (member : a ∈ records) : r.lookup records (r.key a) = some a := by
  induction records with
  | nil => cases member
  | cons b rest ih =>
    rw [List.map_cons, List.nodup_cons] at distinct
    rcases List.mem_cons.mp member with rfl | later
    · simp [lookup]
    · have other : r.key b ≠ r.key a := fun same => distinct.1 (same ▸ List.mem_map_of_mem later)
      simpa [lookup, other] using ih distinct.2 later

theorem lookup_one_same (records : List α) (u : υ) :
    r.lookup (r.one records u) (r.name u) = (r.lookup records (r.name u)).map (r.put u) := by
  induction records with
  | nil => rfl
  | cons a rest ih =>
    by_cases here : r.key a = r.name u
    · simp [one, lookup, here, r.key_put]
    · simpa [one, lookup, here] using ih

theorem lookup_one_other {u : υ} {k : κ} (other : r.name u ≠ k) (records : List α) :
    r.lookup (r.one records u) k = r.lookup records k := by
  induction records with
  | nil => rfl
  | cons a rest ih =>
    by_cases here : r.key a = r.name u
    · simp [one, lookup, here, r.key_put, other]
    · by_cases there : r.key a = k
      · simp [one, lookup, there, Ne.symm other]
      · simpa [one, lookup, here, there] using ih

/-! ## A batch -/

theorem batch_getElem? {us : List υ} {records : List α} {i : Nat} {a : α}
    (found : records[i]? = some a)
    (passed : r.key a ∉ us.map r.name ∨ r.key a ∈ (records.take i).map r.key) :
    (r.batch us records)[i]? = some a := by
  induction us generalizing records with
  | nil => exact found
  | cons u rest ih =>
    rw [List.map_cons, List.mem_cons, not_or] at passed
    have stays := r.one_getElem? found (passed.imp_left And.left)
    apply ih stays
    rw [List.map_take, one_keys, ← List.map_take]
    exact passed.imp_left And.right

theorem lookup_batch_unlisted {us : List υ} {k : κ} (unlisted : k ∉ us.map r.name)
    (records : List α) : r.lookup (r.batch us records) k = r.lookup records k := by
  induction us generalizing records with
  | nil => rfl
  | cons u rest ih =>
    rw [List.map_cons, List.mem_cons, not_or] at unlisted
    rw [batch_cons, ih unlisted.2, r.lookup_one_other (Ne.symm unlisted.1)]

/-- A record is what its own update makes of it. -/
theorem lookup_batch {us : List υ} (distinct : (us.map r.name).Nodup) {u : υ} (member : u ∈ us)
    (records : List α) :
    r.lookup (r.batch us records) (r.name u) = (r.lookup records (r.name u)).map (r.put u) := by
  induction us generalizing records with
  | nil => cases member
  | cons v rest ih =>
    rw [List.map_cons, List.nodup_cons] at distinct
    obtain ⟨fresh, distinct⟩ := distinct
    rw [batch_cons]
    rcases List.mem_cons.mp member with rfl | later
    · rw [r.lookup_batch_unlisted fresh, lookup_one_same]
    · have other : r.name v ≠ r.name u := fun same =>
        fresh (same ▸ List.mem_map_of_mem later)
      rw [ih distinct later, r.lookup_one_other other]

/-- The last of the updates that have a name. -/
def newest (us : List υ) (k : κ) : Option υ := us.reverse.find? fun u => r.name u = k

/-- Where nothing is left of what an earlier update put, a record shows the last one of its name. -/
theorem lookup_batch_newest (overwrites : ∀ u v a, r.put u (r.put v a) = r.put u a) (us : List υ)
    (records : List α) (k : κ) :
    r.lookup (r.batch us records) k =
      (r.lookup records k).map fun a => (r.newest us k).elim a fun u => r.put u a := by
  induction us using List.reverseRecOn with
  | nil => simp [batch, newest]
  | append_singleton us u ih =>
    have last : r.batch (us ++ [u]) records = r.one (r.batch us records) u := r.batch_append us [u] _
    by_cases here : r.name u = k
    · subst here
      have found : r.newest (us ++ [u]) (r.name u) = some u := by simp [newest]
      rw [last, lookup_one_same, ih, found, Option.map_map]
      congr 1
      funext a
      cases r.newest us (r.name u) with
      | none => rfl
      | some v => exact overwrites u v a
    · have found : r.newest (us ++ [u]) k = r.newest us k := by simp [newest, here]
      rw [last, r.lookup_one_other here, ih, found]

theorem newest_some {us : List υ} {k : κ} {u : υ} (found : r.newest us k = some u) :
    u ∈ us ∧ r.name u = k :=
  ⟨List.mem_reverse.mp (List.mem_of_find?_eq_some found), by simpa using List.find?_some found⟩

theorem batch_keys (us : List υ) (records : List α) :
    (r.batch us records).map r.key = records.map r.key := by
  induction us generalizing records with
  | nil => rfl
  | cons u rest ih => rw [batch_cons, ih, one_keys]

/-- Names of no record count for nothing. -/
theorem batch_known (us : List υ) (records : List α) :
    r.batch (us.filter fun u => r.name u ∈ records.map r.key) records = r.batch us records := by
  induction us generalizing records with
  | nil => rfl
  | cons u rest ih =>
    by_cases known : r.name u ∈ records.map r.key
    · rw [List.filter_cons_of_pos (by simpa using known), batch_cons, batch_cons]
      rw [← ih (r.one records u), one_keys]
    · rw [List.filter_cons_of_neg (by simpa using known), batch_cons, r.one_unknown known]
      exact ih records

theorem batch_perm {us vs : List υ} (distinct : (us.map r.name).Nodup) (perm : us.Perm vs)
    (records : List α) : r.batch us records = r.batch vs records := by
  apply perm.foldl_eq'
  intro m memberM n memberN records
  by_cases same : r.name m = r.name n
  · rw [List.inj_on_of_nodup_map distinct memberM memberN same]
  · exact r.one_comm same records

/-- An update moves past a batch that has none of its name. -/
theorem one_batch {us : List υ} {u : υ} (unlisted : r.name u ∉ us.map r.name) (records : List α) :
    r.one (r.batch us records) u = r.batch us (r.one records u) := by
  induction us generalizing records with
  | nil => rfl
  | cons v rest ih =>
    rw [List.map_cons, List.mem_cons, not_or] at unlisted
    rw [batch_cons, ih unlisted.2, batch_cons, r.one_comm unlisted.1]

theorem batch_batch {us : List υ} (distinct : (us.map r.name).Nodup) (records : List α) :
    r.batch us (r.batch us records) = r.batch us records := by
  induction us generalizing records with
  | nil => rfl
  | cons u rest ih =>
    rw [List.map_cons, List.nodup_cons] at distinct
    calc r.batch (u :: rest) (r.batch (u :: rest) records)
        = r.batch rest (r.one (r.batch rest (r.one records u)) u) := rfl
      _ = r.batch rest (r.batch rest (r.one (r.one records u) u)) := by
          rw [r.one_batch distinct.1]
      _ = r.batch rest (r.batch rest (r.one records u)) := by rw [one_one]
      _ = r.batch rest (r.one records u) := ih distinct.2 _

theorem batch_comm {us vs : List υ} (distinctUs : (us.map r.name).Nodup)
    (distinctVs : (vs.map r.name).Nodup) (disjoint : (us.map r.name).Disjoint (vs.map r.name))
    (records : List α) :
    r.batch vs (r.batch us records) = r.batch us (r.batch vs records) := by
  have distinct : ((us ++ vs).map r.name).Nodup := by
    rw [List.map_append, List.nodup_append']
    exact ⟨distinctUs, distinctVs, disjoint⟩
  rw [← batch_append, ← batch_append]
  exact r.batch_perm distinct List.perm_append_comm records

end Update

end FerroWg.Lib.Records
