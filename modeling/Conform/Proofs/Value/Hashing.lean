import Conform.Proofs.Value.Insertion
import Conform.Value.Hashing

/-!
Equality of values is what hashes go by: an equivalence, and equal values write the same into a
hasher, so that a table finds a value under every key that is equal to its own.
-/

namespace Conform

/-- In every hash at any depth the keys differ. -/
inductive Value.Formed : Value → Prop
  | array {items : List Value} (h : ∀ item ∈ items, Formed item) : Formed (.array items)
  | hash {entries : Entries} (hdistinct : Entries.Distinct entries)
    (hkeys : ∀ e ∈ entries, Formed e.1) (hvalues : ∀ e ∈ entries, Formed e.2) :
    Formed (.hash entries)
  | scalar {v : Value} (harray : v.array? = none) (hhash : v.hash? = none) : Formed v

namespace Value

theorem Formed.items {items : List Value} (h : (Value.array items).Formed) :
    ∀ item ∈ items, item.Formed := by
  cases h with
  | array h => exact h
  | scalar harray hhash => cases harray

theorem Formed.entries {entries : Entries} (h : (Value.hash entries).Formed) :
    Entries.Distinct entries ∧ (∀ e ∈ entries, e.1.Formed) ∧ ∀ e ∈ entries, e.2.Formed := by
  cases h with
  | hash hdistinct hkeys hvalues => exact ⟨hdistinct, hkeys, hvalues⟩
  | scalar harray hhash => cases hhash

/-- What is built by inserting such values is such a value. -/
theorem formed_ofPairs {pairs : Entries} (h : ∀ e ∈ pairs, e.1.Formed ∧ e.2.Formed) :
    (Value.hash (Entries.ofPairs pairs)).Formed :=
  .hash (Entries.distinct_ofPairs pairs) (fun e he => (h e (Entries.mem_of_mem_ofPairs he)).1)
    fun e he => (h e (Entries.mem_of_mem_ofPairs he)).2

section

variable {digest : List Piece → UInt64}

theorem itemPieces_congr {xs ys : List Value}
    (h : List.Forall₂ (fun x y => x.pieces digest = y.pieces digest) xs ys) :
    itemPieces digest xs = itemPieces digest ys := by
  induction h with
  | nil => rfl
  | cons hxy _ ih => rw [itemPieces, itemPieces, hxy, ih]

theorem combined_congr {es fs : Entries}
    (h : List.Forall₂ (fun e f => entryDigest digest e = entryDigest digest f) es fs)
    (word : UInt64) : combined digest es word = combined digest fs word := by
  induction h generalizing word with
  | nil => rfl
  | cons hef _ ih => rw [combined, combined, hef, ih]

/-- The digests of entries are joined without regard to their order. -/
theorem combined_perm {es fs : Entries} (h : es.Perm fs) (word : UInt64) :
    combined digest es word = combined digest fs word := by
  induction h generalizing word with
  | nil => rfl
  | cons e _ ih => exact ih _
  | swap e f es =>
    rw [combined, combined, combined, combined, UInt64.xor_assoc,
      UInt64.xor_comm (entryDigest digest f), ← UInt64.xor_assoc]
  | trans _ _ ih ih' => exact (ih word).trans (ih' word)

theorem entryDigest_congr {e f : Value × Value} (hkey : e.1.pieces digest = f.1.pieces digest)
    (hvalue : e.2.pieces digest = f.2.pieces digest) :
    entryDigest digest e = entryDigest digest f := by
  rw [entryDigest, entryDigest, hkey, hvalue]

/-- Equal values write the same into a hasher. -/
theorem pieces_eq_of_beq {a b : Value} (ha : a.Formed) (h : (a == b) = true) :
    a.pieces digest = b.pieces digest := by
  induction a generalizing b with
  | array xs ih =>
    cases b with
    | array ys =>
      have hsame := array_beq_array.mp h
      have hpieces := (List.forall₂_and_left _ _).mpr
        ⟨fun x hx b => ih x hx (b := b) (ha.items x hx), hsame⟩
      have hitems := itemPieces_congr (hpieces.imp fun x y hxy => hxy.1 y hxy.2)
      rw [pieces, pieces, hsame.length_eq, hitems]
    | _ => exact Bool.noConfusion h
  | hash es ih =>
    cases b with
    | hash fs =>
      obtain ⟨hdistinct, hkeys, hvalues⟩ := ha.entries
      obtain ⟨hlen, hamong, -⟩ := hash_beq_hash.mp h
      obtain ⟨reordered, hsame, hperm⟩ := hdistinct.exists_reordered hlen hamong
      have hdigest : ∀ e ∈ es, ∀ f, SameEntry e f → entryDigest digest e = entryDigest digest f :=
        fun e he f hef => entryDigest_congr ((ih e he).1 (hkeys e he) hef.1)
          ((ih e he).2 (hvalues e he) hef.2)
      have hdigests := (List.forall₂_and_left _ _).mpr ⟨hdigest, hsame⟩
      have hcombined := combined_congr (hdigests.imp fun e f hef => hef.1 f hef.2) 0
      rw [pieces, pieces, hlen, hcombined, combined_perm hperm]
    | _ => exact Bool.noConfusion h
  | dateTime m =>
    cases b with
    | dateTime n =>
      obtain ⟨huniversal, hnano⟩ := dateTime_beq_dateTime.mp h
      rw [pieces, pieces, huniversal, hnano]
    | _ => exact Bool.noConfusion h
  | _ =>
    obtain rfl := eq_of_beq h (by simp [primitive]) (by simp [primitive]) (by simp [primitive])
    rfl

end

/-- Equality is an equivalence, whatever order hashes were built in and whatever offsets moments
have. Equal values write the same into a hasher. A hash that pairs are inserted into has one entry
for all keys that are equal, with the value that was inserted last. Hashes are equal that are of one
size if each key of the first has an equal value in the second, so pairs of different keys come to
the same in any order. -/
theorem equality_governs_hashes (digest : List Piece → UInt64) :
    (Equivalence fun a b : Value => (a == b) = true) ∧
      (∀ a b : Value, a.Formed → (a == b) = true → a.pieces digest = b.pieces digest) ∧
      (∀ pairs : Entries, (Entries.ofPairs pairs).Distinct ∧
        ((∀ e ∈ pairs, e.1.Formed ∧ e.2.Formed) → (Value.hash (Entries.ofPairs pairs)).Formed) ∧
        (∀ key value, (Entries.ofPairs pairs).get? key = some value ↔
          ∃ k, pairs.Latest key (k, value)) ∧
        ∀ key, (Entries.ofPairs pairs).get? key = none ↔ ∀ e ∈ pairs, (e.1 == key) = false) ∧
      (∀ es fs : Entries, es.Distinct → fs.Distinct →
        ((Value.hash es == Value.hash fs) = true ↔ es.length = fs.length ∧
          ∀ e ∈ es, ∃ v, fs.get? e.1 = some v ∧ (e.2 == v) = true)) ∧
      ∀ pairs reordered : Entries, pairs.Distinct → pairs.Perm reordered →
        (Value.hash (Entries.ofPairs pairs) == Value.hash (Entries.ofPairs reordered)) = true := by
  refine ⟨⟨beq_refl, beq_symm, beq_trans⟩, fun a b => pieces_eq_of_beq, fun pairs => ?_,
    fun es fs => Entries.hash_beq_iff_get?, fun pairs reordered hd hp => ?_⟩
  · exact ⟨Entries.distinct_ofPairs pairs, formed_ofPairs,
      fun key value => Entries.get?_ofPairs_eq_some, fun key => Entries.get?_ofPairs_eq_none⟩
  · rw [Entries.ofPairs_eq hd, Entries.ofPairs_eq (hd.perm hp)]
    exact Entries.hash_beq_of_perm hp

def noon : Moment where
  date := ⟨2024, 2, 29, by decide, by decide⟩
  second := 43200
  nano := 0
  offset := 0

/-- The same instant as clocks show it an hour ahead. -/
def noonAhead : Moment where
  date := ⟨2024, 2, 29, by decide, by decide⟩
  second := 46800
  nano := 0
  offset := 3600

def agenda : Value :=
  .hash [(.dateTime noon, .float (.quietNaN false)), (.symbol "b", .array [.dateTime noonAhead])]

def agendaAhead : Value :=
  .hash [(.symbol "b", .array [.dateTime noon]), (.dateTime noonAhead, .float (.quietNaN false))]

/-- Keys that differ, the two zeros among them. -/
def oddKeys : Entries :=
  [(agenda, .int 1), (.float (.ofMagnitude false 0), .int 2),
    (.float (.ofMagnitude true 0), .int 3),
    (.float (.quietNaN true), .int 4)]

theorem formed_agenda : agenda.Formed := by
  refine .hash (by unfold Entries.Distinct; decide) (fun e he => ?_) fun e he => ?_
  · simp only [List.mem_cons, List.not_mem_nil, or_false] at he
    obtain rfl | rfl := he
    · exact .scalar rfl rfl
    · exact .scalar rfl rfl
  · simp only [List.mem_cons, List.not_mem_nil, or_false] at he
    obtain rfl | rfl := he
    · exact .scalar rfl rfl
    · exact .array (List.forall_mem_singleton.mpr (.scalar rfl rfl))

theorem equality_governs_hashes_agenda :
    oddKeys.Distinct ∧ (agenda == agendaAhead) = true ∧
      agenda.pieces (fun pieces => .ofNat pieces.length) =
        agendaAhead.pieces (fun pieces => .ofNat pieces.length) ∧
      (Entries.ofPairs (oddKeys ++ [(agendaAhead, .int 5), (.nil, .nil)])).get? agenda =
        some (.int 5) ∧
      ∀ e ∈ Entries.ofPairs oddKeys, ∃ v,
        (Entries.ofPairs oddKeys.reverse).get? e.1 = some v ∧ (e.2 == v) = true := by
  obtain ⟨-, hpieces, hbuilt, hcontents, hreordered⟩ :=
    equality_governs_hashes fun pieces => .ofNat pieces.length
  have hdistinct : oddKeys.Distinct := by
    unfold Entries.Distinct
    decide
  have hequal : (agenda == agendaAhead) = true := by decide
  have hhashes := hreordered oddKeys oddKeys.reverse hdistinct oddKeys.reverse_perm.symm
  refine ⟨hdistinct, hequal, hpieces _ _ formed_agenda hequal, ?_,
    ((hcontents _ _ (hbuilt _).1 (hbuilt _).1).mp hhashes).2⟩
  exact ((hbuilt _).2.2.1 _ _).mpr
    ⟨agendaAhead, oddKeys, [(.nil, .nil)], rfl, BEq.symm hequal, by decide⟩

end Value

end Conform
