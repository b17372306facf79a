import Conform.Proofs.Schema.Keys

/-!
Declaring keys on top of others. A name keeps the place where it came first, and has the key that
came last under it.
-/

namespace Conform.Schema

variable {τ φ : Type}

/-- The last of some keys that has the name of a key, or else the key itself. -/
def latest (keys : List (Key τ)) (k : Key τ) : Key τ :=
  (keys.reverse.find? fun l => l.name == k.name).getD k

/-- The keys with which names come up that a schema does not have. -/
def newcomers (s : Schema τ φ) : List (Key τ) → List (Key τ)
  | [] => []
  | k :: ks =>
    if (s.key? k.name).isSome then newcomers s ks
    else k :: (newcomers s ks).filter fun l => !(l.name == k.name)

theorem find?_name_congr {a b : Value} (h : (a == b) = true) (keys : List (Key τ)) :
    (keys.find? fun k => k.name == a) = keys.find? fun k => k.name == b := by
  simp only [BEq.congr_right h]

theorem find?_putKey (key : Key τ) (keys : List (Key τ)) (q : Value) :
    ((putKey key keys).find? fun k => k.name == q) =
      if key.name == q then some key else keys.find? fun k => k.name == q := by
  induction keys with
  | nil =>
    rw [putKey, List.find?_cons]
    cases key.name == q <;> rfl
  | cons k ks ih =>
    unfold putKey
    cases hk : k.name == key.name with
    | true =>
      have hsame : (k.name == q) = (key.name == q) := BEq.congr_left hk
      rw [if_pos rfl, List.find?_cons, List.find?_cons, hsame]
      cases key.name == q <;> rfl
    | false =>
      rw [if_neg Bool.false_ne_true, List.find?_cons, ih, List.find?_cons]
      cases hq : k.name == q with
      | false => rfl
      | true =>
        have hne : (key.name == q) = false := by
          rw [← hk, BEq.comm (a := k.name), BEq.congr_right (BEq.symm hq)]
        rw [hne]
        rfl

/-- Changing declared keys under their names changes nothing else. -/
theorem map_putKey {υ : Type} {f : Key τ → Key υ} (hf : ∀ k, (f k).name = k.name) (key : Key τ)
    (keys : List (Key τ)) : (putKey key keys).map f = putKey (f key) (keys.map f) := by
  induction keys with
  | nil => rfl
  | cons k ks ih =>
    rw [putKey, List.map_cons, putKey, hf, hf]
    split
    next => rfl
    next => rw [List.map_cons, ih]

theorem map_foldl_putKey {υ : Type} {f : Key τ → Key υ} (hf : ∀ k, (f k).name = k.name)
    (keys added : List (Key τ)) : (added.foldl (fun ks k => putKey k ks) keys).map f =
      (added.map f).foldl (fun ks k => putKey k ks) (keys.map f) := by
  induction added generalizing keys with
  | nil => rfl
  | cons k ks ih => rw [List.foldl_cons, ih, map_putKey hf, List.map_cons, List.foldl_cons]

theorem merge_cons (s : Schema τ φ) (k : Key τ) (keys : List (Key τ)) :
    s.merge (k :: keys) = (s.merge [k]).merge keys :=
  rfl

theorem key?_merge_one (s : Schema τ φ) (k : Key τ) (q : Value) :
    (s.merge [k]).key? q = if k.name == q then some k else s.key? q :=
  find?_putKey k s.keys q

/-- The last key of a name is the one that counts. -/
theorem key?_merge (s : Schema τ φ) (keys : List (Key τ)) (q : Value) :
    (s.merge keys).key? q = (keys.reverse.find? fun k => k.name == q).or (s.key? q) := by
  induction keys generalizing s with
  | nil => rfl
  | cons k ks ih =>
    rw [merge_cons, ih, key?_merge_one, List.reverse_cons, List.find?_append, List.find?_singleton]
    cases ks.reverse.find? fun l => l.name == q with
    | some l => rfl
    | none => cases k.name == q <;> rfl

theorem merge_append (s : Schema τ φ) (keys more : List (Key τ)) :
    s.merge (keys ++ more) = (s.merge keys).merge more := by
  simp only [merge, List.foldl_append]

theorem putKey_of_mem {keys : List (Key τ)} (h : NamesDiffer keys) {k : Key τ} (hk : k ∈ keys) :
    putKey k keys = keys := by
  induction keys with
  | nil => cases hk
  | cons l ls ih =>
    obtain ⟨hl, hls⟩ := List.pairwise_cons.mp h
    unfold putKey
    rcases List.mem_cons.mp hk with rfl | hk
    · rw [if_pos (BEq.refl k.name)]
    · rw [hl k hk, if_neg Bool.false_ne_true, ih hls hk]

/-- Keys that are there already change nothing. -/
theorem merge_self {s : Schema τ φ} (h : NamesDiffer s.keys) : s.merge s.keys = s := by
  have hfold : ∀ added : List (Key τ), (∀ k ∈ added, k ∈ s.keys) →
      added.foldl (fun ks k => putKey k ks) s.keys = s.keys := by
    intro added hadded
    induction added with
    | nil => rfl
    | cons k ks ih =>
      obtain ⟨hk, hks⟩ := List.forall_mem_cons.mp hadded
      rw [List.foldl_cons, putKey_of_mem h hk, ih hks]
  rw [merge, hfold s.keys fun k hk => hk]

theorem latest_name (keys : List (Key τ)) (k : Key τ) :
    ((latest keys k).name == k.name) = true := by
  unfold latest
  cases hfound : keys.reverse.find? fun l => l.name == k.name with
  | none => exact BEq.refl k.name
  | some l =>
    have hname := List.find?_some hfound
    exact hname

theorem latest_one (key k : Key τ) : latest [key] k = if key.name == k.name then key else k := by
  rw [latest, List.reverse_singleton, List.find?_singleton]
  split <;> rfl

theorem latest_cons (k : Key τ) (ks : List (Key τ)) (l : Key τ) :
    latest (k :: ks) l = latest ks (latest [k] l) := by
  rw [latest_one]
  unfold latest
  rw [List.reverse_cons, List.find?_append, List.find?_singleton]
  split
  next hkl =>
    rw [find?_name_congr hkl]
    cases ks.reverse.find? fun m => m.name == l.name <;> rfl
  next => rw [Option.or_none]

theorem mem_newcomers {s : Schema τ φ} {keys : List (Key τ)} {k : Key τ}
    (h : k ∈ s.newcomers keys) : s.key? k.name = none := by
  induction keys with
  | nil => cases h
  | cons l ls ih =>
    unfold newcomers at h
    split at h
    next => exact ih h
    next hnone =>
      rcases List.mem_cons.mp h with rfl | h
      · exact Option.not_isSome_iff_eq_none.mp hnone
      · exact ih (List.mem_filter.mp h).1

/-- After a key no other of its name is new. -/
theorem newcomers_merge_one (s : Schema τ φ) (k : Key τ) (keys : List (Key τ)) :
    (s.merge [k]).newcomers keys = (s.newcomers keys).filter fun l => !(l.name == k.name) := by
  induction keys with
  | nil => rfl
  | cons l ls ih =>
    rw [newcomers, newcomers, key?_merge_one, ih]
    cases hkl : k.name == l.name with
    | true =>
      have hlk : (l.name == k.name) = true := BEq.symm hkl
      rw [if_pos rfl, Option.isSome_some, if_pos rfl]
      cases (s.key? l.name).isSome with
      | true => rw [if_pos rfl]
      | false =>
        rw [if_neg Bool.false_ne_true, List.filter_cons, hlk, Bool.not_true,
          if_neg Bool.false_ne_true, List.filter_filter]
        simp only [BEq.congr_right hlk, Bool.and_self]
    | false =>
      have hlk : (l.name == k.name) = false := by rw [BEq.comm, hkl]
      rw [if_neg Bool.false_ne_true]
      cases (s.key? l.name).isSome with
      | true => rw [if_pos rfl, if_pos rfl]
      | false =>
        rw [if_neg Bool.false_ne_true, if_neg Bool.false_ne_true, List.filter_cons, hlk,
          Bool.not_false, if_pos rfl, List.filter_filter, List.filter_filter]
        simp only [Bool.and_comm]

theorem newcomers_cons (s : Schema τ φ) (k : Key τ) (keys : List (Key τ)) :
    s.newcomers (k :: keys) = s.newcomers [k] ++ (s.merge [k]).newcomers keys := by
  rw [newcomers_merge_one, newcomers, newcomers]
  cases hk : s.key? k.name with
  | none => rfl
  | some l =>
    have hall : ∀ m ∈ s.newcomers keys, (!(m.name == k.name)) = true := by
      intro m hm
      have hnone : s.key? m.name = none := mem_newcomers hm
      cases hmk : m.name == k.name with
      | false => rfl
      | true =>
        rw [key?, find?_name_congr hmk] at hnone
        cases hnone.symm.trans hk
    rw [Option.isSome_some, if_pos rfl, if_pos rfl, List.filter_eq_self.mpr hall]
    rfl

/-- A key takes the place of the one of its name, or comes last. -/
theorem putKey_eq_map {keys : List (Key τ)} (h : NamesDiffer keys) (key : Key τ) :
    putKey key keys = keys.map (latest [key]) ++
      if (keys.find? fun k => k.name == key.name).isSome then [] else [key] := by
  induction keys with
  | nil => rfl
  | cons k ks ih =>
    obtain ⟨hk, hks⟩ := List.pairwise_cons.mp h
    rw [putKey, List.map_cons, List.find?_cons, latest_one, BEq.comm (a := key.name)]
    cases hname : k.name == key.name with
    | false =>
      rw [if_neg Bool.false_ne_true, if_neg Bool.false_ne_true, ih hks]
      rfl
    | true =>
      have hrest : ks.map (latest [key]) = ks := by
        have hsame : ∀ l ∈ ks, latest [key] l = l := by
          intro l hl
          rw [latest_one, ← BEq.congr_left hname, hk l hl, if_neg Bool.false_ne_true]
        rw [List.map_congr_left hsame, List.map_id']
      rw [if_pos rfl, if_pos rfl, hrest]
      exact (List.append_nil _).symm

theorem keys_merge_one {s : Schema τ φ} (h : NamesDiffer s.keys) (k : Key τ) :
    (s.merge [k]).keys = (s.keys ++ s.newcomers [k]).map (latest [k]) := by
  have hput : (s.merge [k]).keys = putKey k s.keys := rfl
  rw [hput, putKey_eq_map h, List.map_append, newcomers, newcomers, key?]
  congr 1
  split
  next => rfl
  next => rw [List.filter_nil, List.map_singleton, latest_one, BEq.refl, if_pos rfl]

/-- The names of a schema stay in their places and the new ones follow as they first come up; under
each is the last key that has it. -/
theorem keys_merge {s : Schema τ φ} (h : NamesDiffer s.keys) (keys : List (Key τ)) :
    (s.merge keys).keys = (s.keys ++ s.newcomers keys).map (latest keys) := by
  induction keys generalizing s with
  | nil =>
    have hself : ∀ k ∈ s.keys, latest [] k = k := fun _ _ => rfl
    rw [newcomers, List.append_nil, List.map_congr_left hself, List.map_id']
    rfl
  | cons k ks ih =>
    have hlater : ∀ l ∈ (s.merge [k]).newcomers ks, latest ks l = latest (k :: ks) l := by
      intro l hl
      have hnone := mem_newcomers hl
      rw [key?_merge_one] at hnone
      rw [latest_cons, latest_one]
      split at hnone
      next => cases hnone
      next hne => rw [if_neg hne]
    have hearlier : (s.merge [k]).keys.map (latest ks) =
        (s.keys ++ s.newcomers [k]).map (latest (k :: ks)) := by
      rw [keys_merge_one h, List.map_map]
      exact List.map_congr_left fun l _ => (latest_cons k ks l).symm
    rw [merge_cons s k ks, ih (namesDiffer_merge h [k]), List.map_append, hearlier,
      List.map_congr_left hlater, ← List.map_append, List.append_assoc, ← newcomers_cons s k ks]

end Conform.Schema
