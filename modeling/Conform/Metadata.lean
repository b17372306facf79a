import Conform.Value.Equality

namespace Conform

theorem Metadata.sorted_nil : ([] : List (String × Value)).Pairwise fun d e => d.1 < e.1 :=
  .nil

/-- Notes on a type, sorted by name. They have no part in what the type accepts. -/
structure Metadata where
  entries : List (String × Value) := []
  sorted : entries.Pairwise (fun d e => d.1 < e.1) := by exact Metadata.sorted_nil
  deriving Inhabited, Repr

namespace Metadata

def get? (m : Metadata) (name : String) : Option Value :=
  (m.entries.find? fun e => e.1 = name).map Prod.snd

/-- Puts a note in its place, or over the one of the same name. -/
def put (name : String) (value : Value) : List (String × Value) → List (String × Value)
  | [] => [(name, value)]
  | e :: es =>
    if name = e.1 then (name, value) :: es
    else if name < e.1 then (name, value) :: e :: es
    else e :: put name value es

theorem mem_put {name : String} {value : Value} {e : String × Value}
    {es : List (String × Value)} (h : e ∈ put name value es) : e = (name, value) ∨ e ∈ es := by
  induction es with
  | nil => exact Or.inl (List.mem_singleton.mp h)
  | cons d es ih =>
    unfold put at h
    split at h
    next => exact (List.mem_cons.mp h).imp_right (List.mem_cons_of_mem d)
    next =>
      split at h
      next => exact List.mem_cons.mp h
      next =>
        rcases List.mem_cons.mp h with rfl | h
        · exact Or.inr (by simp)
        · exact (ih h).imp_right (List.mem_cons_of_mem d)

theorem put_sorted (name : String) (value : Value) {es : List (String × Value)}
    (h : es.Pairwise (fun d e => d.1 < e.1)) :
    (put name value es).Pairwise (fun d e => d.1 < e.1) := by
  induction es with
  | nil => simp [put]
  | cons d es ih =>
    obtain ⟨hd, hs⟩ := List.pairwise_cons.mp h
    unfold put
    split
    next heq => exact List.pairwise_cons.mpr ⟨fun e he => heq ▸ hd e he, hs⟩
    next hne =>
      split
      next hlt =>
        refine List.pairwise_cons.mpr ⟨fun e he => ?_, h⟩
        rcases List.mem_cons.mp he with rfl | he
        · exact hlt
        · exact String.lt_trans hlt (hd e he)
      next hge =>
        have hlt : d.1 < name :=
          String.not_le.mp fun hle => hne (String.le_antisymm hle (String.not_lt.mp hge))
        refine List.pairwise_cons.mpr ⟨fun e he => ?_, ih hs⟩
        rcases mem_put he with rfl | he
        · exact hlt
        · exact hd e he

def insert (m : Metadata) (name : String) (value : Value) : Metadata :=
  ⟨put name value m.entries, put_sorted name value m.sorted⟩

/-- All notes of both; of two with one name, the second. -/
def merge (m other : Metadata) : Metadata :=
  other.entries.foldl (fun m e => m.insert e.1 e.2) m

def ofList (entries : List (String × Value)) : Metadata :=
  entries.foldl (fun m e => m.insert e.1 e.2) {}

def isEmpty (m : Metadata) : Bool :=
  m.entries.isEmpty

def size (m : Metadata) : Nat :=
  m.entries.length

/-- The note that lets a key of a schema be left out. -/
def omittable : String :=
  "omittable"

def isOmittable (m : Metadata) : Bool :=
  (m.get? omittable).any (· == .bool true)

def beqEntries : List (String × Value) → List (String × Value) → Bool
  | [], [] => true
  | (a, v) :: as, (b, w) :: bs => a == b && v == w && beqEntries as bs
  | _, _ => false

instance : BEq Metadata := ⟨fun a b => beqEntries a.entries b.entries⟩

end Metadata

end Conform
