import Conform.Value.Equality
import Mathlib.Data.List.Forall2

namespace Conform.Value

/-- Induction with the hypothesis for every item of an array, and for the key and the value of every
entry of a hash. -/
@[elab_as_elim, induction_eliminator]
theorem induction {motive : Value → Prop} (undefined : motive undefined) (nil : motive nil)
    (bool : ∀ b, motive (bool b)) (int : ∀ n, motive (int n)) (float : ∀ x, motive (float x))
    (string : ∀ s, motive (string s)) (symbol : ∀ s, motive (symbol s))
    (date : ∀ d, motive (date d)) (dateTime : ∀ m, motive (dateTime m))
    (array : ∀ items, (∀ v ∈ items, motive v) → motive (array items))
    (hash : ∀ entries, (∀ e ∈ entries, motive e.1 ∧ motive e.2) → motive (hash entries))
    (v : Value) : motive v := by
  refine @Value.rec motive (fun items => ∀ v ∈ items, motive v)
    (fun entries => ∀ e ∈ entries, motive e.1 ∧ motive e.2) (fun e => motive e.1 ∧ motive e.2)
    undefined nil bool int float string symbol date dateTime array hash ?_ ?_ ?_ ?_ ?_ v
  · simp
  · exact fun v items hv hi => List.forall_mem_cons.mpr ⟨hv, hi⟩
  · simp
  · exact fun e entries he hes => List.forall_mem_cons.mpr ⟨he, hes⟩
  · exact fun k v hk hv => ⟨hk, hv⟩

/-- Two entries have equal keys and equal values. -/
def SameEntry (e f : Value × Value) : Prop :=
  (e.1 == f.1) = true ∧ (e.2 == f.2) = true

theorem matches?_iff {e f : Value × Value} : matches? e f = true ↔ SameEntry e f := by
  rw [matches?, Bool.and_eq_true]
  exact Iff.rfl

theorem beqItems_iff {xs ys : List Value} :
    beqItems xs ys = true ↔ List.Forall₂ (fun x y => (x == y) = true) xs ys := by
  induction xs generalizing ys with
  | nil => cases ys <;> simp [beqItems]
  | cons x xs ih =>
    cases ys with
    | nil => simp [beqItems]
    | cons y ys =>
      rw [beqItems, Bool.and_eq_true, List.forall₂_cons, ih]
      exact Iff.rfl

/-- A mark is set from the start, or by an entry that equals its place. -/
theorem cover_iff {es fs : List (Value × Value)} {marks : List Bool}
    (hl : marks.length = fs.length) :
    cover es fs marks = true ↔ (∀ e ∈ es, ∃ f ∈ fs, SameEntry e f) ∧
      ∀ i (hi : i < fs.length), marks[i] = true ∨ ∃ e ∈ es, SameEntry e fs[i] := by
  induction es generalizing marks with
  | nil =>
    simp only [cover, List.all_eq_true, id_eq, List.not_mem_nil, false_implies, implies_true,
      true_and, false_and, exists_false, or_false]
    constructor
    · intro h i hi
      exact h _ (List.getElem_mem (by omega))
    · intro h b hb
      obtain ⟨i, hi, rfl⟩ := List.mem_iff_getElem.mp hb
      exact h i (by omega)
  | cons e es ih =>
    have hlen : (marks.zipWith or (fs.map (matches? e))).length = fs.length := by simp [hl]
    have hfound : (fs.map (matches? e)).any id = true ↔ ∃ f ∈ fs, SameEntry e f := by
      simp [matches?_iff]
    rw [cover, Bool.and_eq_true, hfound, ih hlen, List.forall_mem_cons, and_assoc]
    refine and_congr_right fun _ => and_congr_right fun _ => forall_congr' fun i =>
      forall_congr' fun hi => ?_
    simp only [List.getElem_zipWith, List.getElem_map, Bool.or_eq_true, matches?_iff,
      List.exists_mem_cons_iff, or_assoc]

theorem array_beq_array {xs ys : List Value} :
    (array xs == array ys) = true ↔ List.Forall₂ (fun x y => (x == y) = true) xs ys :=
  beqItems_iff

/-- Hashes are equal when each entry of one is an entry of the other, and the other way round. -/
theorem hash_beq_hash {es fs : List (Value × Value)} :
    (hash es == hash fs) = true ↔ es.length = fs.length ∧
      (∀ e ∈ es, ∃ f ∈ fs, SameEntry e f) ∧ ∀ f ∈ fs, ∃ e ∈ es, SameEntry e f := by
  change (es.length == fs.length && cover es fs (fs.map fun _ => false)) = true ↔ _
  rw [Bool.and_eq_true, beq_iff_eq, cover_iff (by simp), List.forall_mem_iff_getElem (l := fs)]
  simp

theorem dateTime_beq_dateTime {m n : Moment} :
    (dateTime m == dateTime n) = true ↔ m.universal = n.universal ∧ m.nano = n.nano := by
  change m.same n = true ↔ _
  simp [Moment.same]

/-- Only moments, arrays and hashes are equal to others than themselves. -/
theorem eq_of_beq {a b : Value} (h : (a == b) = true) (hm : a.primitive ≠ .dateTime)
    (ha : a.primitive ≠ .array) (hh : a.primitive ≠ .hash) : a = b := by
  cases a <;> cases b <;> simp_all [BEq.beq, beq, primitive]

theorem beq_refl (v : Value) : (v == v) = true := by
  induction v with
  | array items ih => exact array_beq_array.mpr (List.forall₂_same.mpr ih)
  | hash entries ih =>
    exact hash_beq_hash.mpr ⟨rfl, fun e he => ⟨e, he, ih e he⟩, fun e he => ⟨e, he, ih e he⟩⟩
  | dateTime m => exact dateTime_beq_dateTime.mpr ⟨rfl, rfl⟩
  | _ => simp [BEq.beq, beq]

theorem forall₂_beq_symm {xs ys : List Value}
    (ih : ∀ x ∈ xs, ∀ {b : Value}, (x == b) = true → (b == x) = true)
    (h : List.Forall₂ (fun x y => (x == y) = true) xs ys) :
    List.Forall₂ (fun x y => (x == y) = true) ys xs := by
  induction h with
  | nil => exact .nil
  | cons hxy _ ihl =>
    exact .cons (ih _ List.mem_cons_self hxy) (ihl fun x hx => ih x (List.mem_cons_of_mem _ hx))

theorem beq_symm {a b : Value} (h : (a == b) = true) : (b == a) = true := by
  induction a generalizing b with
  | array xs ih =>
    cases b with
    | array ys => exact array_beq_array.mpr (forall₂_beq_symm ih (array_beq_array.mp h))
    | _ => exact Bool.noConfusion h
  | hash es ih =>
    cases b with
    | hash fs =>
      obtain ⟨hlen, hes, hfs⟩ := hash_beq_hash.mp h
      have flip : ∀ e ∈ es, ∀ f, SameEntry e f → SameEntry f e :=
        fun e he f hef => ⟨(ih e he).1 hef.1, (ih e he).2 hef.2⟩
      refine hash_beq_hash.mpr ⟨hlen.symm, fun f hf => ?_, fun e he => ?_⟩
      · obtain ⟨e, he, hef⟩ := hfs f hf
        exact ⟨e, he, flip e he f hef⟩
      · obtain ⟨f, hf, hef⟩ := hes e he
        exact ⟨f, hf, flip e he f hef⟩
    | _ => exact Bool.noConfusion h
  | dateTime m =>
    cases b with
    | dateTime n => exact dateTime_beq_dateTime.mpr ((dateTime_beq_dateTime.mp h).imp .symm .symm)
    | _ => exact Bool.noConfusion h
  | _ =>
    obtain rfl := eq_of_beq h (by simp [primitive]) (by simp [primitive]) (by simp [primitive])
    exact h

theorem forall₂_beq_trans {xs ys zs : List Value}
    (ih : ∀ x ∈ xs, ∀ {b c : Value}, (x == b) = true → (b == c) = true → (x == c) = true)
    (hxy : List.Forall₂ (fun x y => (x == y) = true) xs ys)
    (hyz : List.Forall₂ (fun x y => (x == y) = true) ys zs) :
    List.Forall₂ (fun x y => (x == y) = true) xs zs := by
  induction hxy generalizing zs with
  | nil => exact hyz
  | cons h _ ihl =>
    cases hyz with
    | cons h' htail =>
      exact .cons (ih _ List.mem_cons_self h h')
        (ihl (fun x hx => ih x (List.mem_cons_of_mem _ hx)) htail)

theorem beq_trans {a b c : Value} (hab : (a == b) = true) (hbc : (b == c) = true) :
    (a == c) = true := by
  induction a generalizing b c with
  | array xs ih =>
    cases b with
    | array ys =>
      cases c with
      | array zs =>
        exact array_beq_array.mpr
          (forall₂_beq_trans ih (array_beq_array.mp hab) (array_beq_array.mp hbc))
      | _ => exact Bool.noConfusion hbc
    | _ => exact Bool.noConfusion hab
  | hash es ih =>
    cases b with
    | hash fs =>
      cases c with
      | hash gs =>
        obtain ⟨hlen, hes, hfs⟩ := hash_beq_hash.mp hab
        obtain ⟨hlen', hfs', hgs⟩ := hash_beq_hash.mp hbc
        have join : ∀ e ∈ es, ∀ f g, SameEntry e f → SameEntry f g → SameEntry e g :=
          fun e he f g hef hfg => ⟨(ih e he).1 hef.1 hfg.1, (ih e he).2 hef.2 hfg.2⟩
        refine hash_beq_hash.mpr ⟨hlen.trans hlen', fun e he => ?_, fun g hg => ?_⟩
        · obtain ⟨f, hf, hef⟩ := hes e he
          obtain ⟨g, hg, hfg⟩ := hfs' f hf
          exact ⟨g, hg, join e he f g hef hfg⟩
        · obtain ⟨f, hf, hfg⟩ := hgs g hg
          obtain ⟨e, he, hef⟩ := hfs f hf
          exact ⟨e, he, join e he f g hef hfg⟩
      | _ => exact Bool.noConfusion hbc
    | _ => exact Bool.noConfusion hab
  | dateTime m =>
    cases b with
    | dateTime n =>
      cases c with
      | dateTime o =>
        obtain ⟨hu, hn⟩ := dateTime_beq_dateTime.mp hab
        obtain ⟨hu', hn'⟩ := dateTime_beq_dateTime.mp hbc
        exact dateTime_beq_dateTime.mpr ⟨hu.trans hu', hn.trans hn'⟩
      | _ => exact Bool.noConfusion hbc
    | _ => exact Bool.noConfusion hab
  | _ =>
    obtain rfl := eq_of_beq hab (by simp [primitive]) (by simp [primitive]) (by simp [primitive])
    exact hbc

instance : EquivBEq Value where
  rfl := beq_refl _
  symm := beq_symm
  trans := beq_trans

@[simp]
theorem symbol_beq_symbol (a b : String) : (symbol a == symbol b) = (a == b) :=
  rfl

end Conform.Value
