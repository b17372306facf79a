import Conform.Proofs.Calendar.Wire
import Conform.Proofs.Metadata
import Conform.Proofs.Value.Entries
import Conform.Proofs.Wire.Decoder
import Conform.Wire.Value

namespace Conform

namespace Value

mutual

/-- How deep collections are nested in a written value. The entries of a hash are arrays of two. -/
def levels : Value → Nat
  | array items => 1 + itemLevels items
  | hash entries => 1 + entryLevels entries
  | _ => 0

def itemLevels : List Value → Nat
  | [] => 0
  | item :: items => max (levels item) (itemLevels items)

def entryLevels : List (Value × Value) → Nat
  | [] => 0
  | (key, value) :: entries => max (1 + max (levels key) (levels value)) (entryLevels entries)

end

mutual

/-- The hashes in a value have different keys, and its moments have offsets of whole minutes. -/
def Proper : Value → Prop
  | dateTime m => m.onMinute = true
  | array items => properItems items
  | hash entries => Entries.Distinct entries ∧ properEntries entries
  | _ => True

def properItems : List Value → Prop
  | [] => True
  | item :: items => Proper item ∧ properItems items

def properEntries : List (Value × Value) → Prop
  | [] => True
  | (key, value) :: entries => (Proper key ∧ Proper value) ∧ properEntries entries

end

theorem levels_le_itemLevels {items : List Value} {v : Value} (h : v ∈ items) :
    v.levels ≤ itemLevels items := by
  induction items with
  | nil => simp at h
  | cons item items ih =>
    rw [itemLevels]
    rcases List.mem_cons.mp h with rfl | h
    · exact Nat.le_max_left _ _
    · exact Nat.le_trans (ih h) (Nat.le_max_right _ _)

theorem levels_le_entryLevels {entries : Entries} {e : Value × Value} (h : e ∈ entries) :
    1 + max e.1.levels e.2.levels ≤ entryLevels entries := by
  induction entries with
  | nil => simp at h
  | cons entry entries ih =>
    rw [entryLevels]
    rcases List.mem_cons.mp h with rfl | h
    · exact Nat.le_max_left _ _
    · exact Nat.le_trans (ih h) (Nat.le_max_right _ _)

theorem properItems_iff {items : List Value} : properItems items ↔ ∀ v ∈ items, v.Proper := by
  induction items with
  | nil => simp [properItems]
  | cons item items ih => rw [properItems, ih, List.forall_mem_cons]

theorem properEntries_iff {entries : Entries} :
    properEntries entries ↔ ∀ e ∈ entries, e.1.Proper ∧ e.2.Proper := by
  induction entries with
  | nil => simp [properEntries]
  | cons entry entries ih => rw [properEntries, ih, List.forall_mem_cons]

theorem itemTokens_eq_flatMap (items : List Value) : itemTokens items = items.flatMap tokens := by
  induction items with
  | nil => rfl
  | cons item items ih => rw [itemTokens, ih, List.flatMap_cons]

/-- The tokens of one entry of a hash. -/
def pairTokens (e : Value × Value) : List Wire.Token :=
  .array 2 :: tokens e.1 ++ tokens e.2

theorem length_pairTokens (e : Value × Value) :
    (pairTokens e).length = 1 + e.1.tokens.length + e.2.tokens.length := by
  simp only [pairTokens, List.length_append, List.length_cons]
  omega

theorem entryTokens_eq_flatMap (entries : Entries) :
    entryTokens entries = entries.flatMap pairTokens := by
  induction entries with
  | nil => rfl
  | cons entry entries ih =>
    rw [entryTokens, ih, List.flatMap_cons]
    rfl

theorem tokens_ne_nil (v : Value) : v.tokens ≠ [] := by
  cases v <;> simp [tokens, Wire.tagged]

end Value

namespace Wire

theorem length_le_length_flatMap {α β : Type} (f : α → List β) {as : List α} {a : α} (h : a ∈ as) :
    (f a).length ≤ (as.flatMap f).length := by
  induction as with
  | nil => simp at h
  | cons b bs ih =>
    rw [List.flatMap_cons, List.length_append]
    rcases List.mem_cons.mp h with rfl | h
    · omega
    · have hlength := ih h
      omega

/-- A value of a class is decoded from the name of the class and what it consists of. -/
theorem class_decodes {fuel : Nat} {r : Reading} {name : String} {d : Decoder Value}
    {data : List Token} {v : Value} (h : (name, .data d) ∈ valueVariants r (valueWithin fuel))
    (hd : Decodes d data v) : Decodes (valueWithin (fuel + 1) r) (tagged name data) v := by
  have hnames : ((valueVariants r (valueWithin fuel)).map Prod.fst).Nodup := by
    simp [valueVariants]
  exact variant_data_decodes hnames h hd

theorem constant_decodes {fuel : Nat} {r : Reading} {name : String} {v : Value}
    (h : (name, .unit v) ∈ valueVariants r (valueWithin fuel)) :
    Decodes (valueWithin (fuel + 1) r) [.text name] v := by
  have hnames : ((valueVariants r (valueWithin fuel)).map Prod.fst).Nodup := by
    simp [valueVariants]
  exact variant_unit_decodes hnames h

/-- A value is decoded from its tokens, given as much depth as they have. -/
theorem valueWithin_decodes {v : Value} (hp : v.Proper) {level fuel : Nat}
    (hl : v.levels ≤ level) (hf : v.tokens.length ≤ fuel + 1) :
    Decodes (valueWithin (fuel + 1) (.direct level)) v.tokens v := by
  induction v generalizing level fuel with
  | undefined => exact constant_decodes (by simp [valueVariants])
  | nil => exact constant_decodes (by simp [valueVariants])
  | bool b => exact class_decodes (by simp [valueVariants]) ((bool_decodes b).map Value.bool)
  | int n => exact class_decodes (by simp [valueVariants]) ((int_decodes n).map Value.int)
  | float x => exact class_decodes (by simp [valueVariants]) ((float_decodes x).map Value.float)
  | string s => exact class_decodes (by simp [valueVariants]) ((text_decodes s).map Value.string)
  | symbol s => exact class_decodes (by simp [valueVariants]) ((text_decodes s).map Value.symbol)
  | date d =>
    have hd := parsed_decodes (Calendar.wireDate?_text d)
    exact class_decodes (by simp [valueVariants]) (hd.map Value.date)
  | dateTime m =>
    have hm := parsed_decodes (Calendar.wireMoment?_shortText hp)
    exact class_decodes (by simp [valueVariants]) (hm.map Value.dateTime)
  | array items ih =>
    rw [Value.levels] at hl
    simp only [Value.tokens, tagged, List.length_cons, Value.itemTokens_eq_flatMap] at hf
    obtain ⟨level, rfl⟩ : ∃ n, level = n + 1 := ⟨level - 1, by omega⟩
    obtain ⟨fuel, rfl⟩ : ∃ n, fuel = n + 1 := ⟨fuel - 1, by omega⟩
    have hitems : ∀ v ∈ items, Decodes (valueWithin (fuel + 1) (.direct level)) v.tokens v := by
      intro v hv
      have hlevels := Value.levels_le_itemLevels hv
      have hlength := length_le_length_flatMap Value.tokens hv
      exact ih v hv (Value.properItems_iff.mp hp v hv) (by omega) (by omega)
    have harray := items_decodes hitems
    rw [← Value.itemTokens_eq_flatMap] at harray
    exact class_decodes (by simp [valueVariants]) (harray.map Value.array)
  | hash entries ih =>
    obtain ⟨hdistinct, hproper⟩ := hp
    rw [Value.levels] at hl
    simp only [Value.tokens, tagged, List.length_cons, Value.entryTokens_eq_flatMap] at hf
    obtain ⟨level, rfl⟩ : ∃ n, level = n + 1 := ⟨level - 1, by omega⟩
    obtain ⟨fuel, rfl⟩ : ∃ n, fuel = n + 1 := ⟨fuel - 1, by omega⟩
    have hentries : ∀ e ∈ entries, Decodes
        (pair (.direct level) (valueWithin (fuel + 1)) (valueWithin (fuel + 1)))
        (Value.pairTokens e) e := by
      intro e he
      have hlevels := Value.levels_le_entryLevels he
      have hlength := length_le_length_flatMap Value.pairTokens he
      rw [Value.length_pairTokens] at hlength
      obtain ⟨hk, hv⟩ := Value.properEntries_iff.mp hproper e he
      obtain ⟨level, rfl⟩ : ∃ n, level = n + 1 := ⟨level - 1, by omega⟩
      have hkey : Decodes (valueWithin (fuel + 1) (.direct level)) e.1.tokens e.1 :=
        (ih e he).1 hk (by omega) (by omega)
      have hvalue : Decodes (valueWithin (fuel + 1) (.direct level)) e.2.tokens e.2 :=
        (ih e he).2 hv (by omega) (by omega)
      exact pair_decodes hkey hvalue
    have hhash := items_decodes
      (d := fun r => pair r (valueWithin (fuel + 1)) (valueWithin (fuel + 1))) hentries
    rw [← Value.entryTokens_eq_flatMap] at hhash
    have hvalue := hhash.map fun es => Value.hash (Entries.ofPairs es)
    rw [Entries.ofPairs_eq hdistinct] at hvalue
    exact class_decodes (by simp [valueVariants]) hvalue

theorem value_decodes {v : Value} (hp : v.Proper) {level : Nat} (hl : v.levels ≤ level) :
    Decodes (value (.direct level)) v.tokens v :=
  decodes_of_within (fun fuel => valueWithin fuel (.direct level)) v.tokens_ne_nil
    fun _ hf => valueWithin_decodes hp hl hf

end Wire

namespace Metadata

/-- How deep collections are nested in written metadata; empty ones are not written. -/
def levels (m : Metadata) : Nat :=
  if m.isEmpty then 0 else 1 + Value.itemLevels (m.entries.map Prod.snd)

def Proper (m : Metadata) : Prop :=
  ∀ e ∈ m.entries, e.2.Proper

end Metadata

namespace Wire

theorem note_decodes {e : String × Value} (hp : e.2.Proper) {level : Nat}
    (hl : e.2.levels ≤ level) :
    Decodes (note (.direct level)) (.text e.1 :: e.2.tokens) e := by
  intro rest
  have hname := text_decodes e.1 (e.2.tokens ++ rest)
  rw [List.cons_append, List.nil_append] at hname
  simp only [note, List.cons_append, hname, value_decodes hp hl rest, Option.bind_eq_bind,
    Option.bind_some]
  rfl

/-- Metadata that are written are decoded. -/
theorem metadata_decodes {m : Metadata} (hp : m.Proper) (hne : m.isEmpty = false) {level : Nat}
    (hl : m.levels ≤ level) : Decodes (metadata (.direct level)) m.tokens m := by
  rw [Metadata.levels, hne, if_neg Bool.false_ne_true] at hl
  obtain ⟨level, rfl⟩ : ∃ n, level = n + 1 := ⟨level - 1, by omega⟩
  have hnotes : ∀ e ∈ m.entries, Decodes (note (.direct level)) (.text e.1 :: e.2.tokens) e := by
    intro e he
    have hlevels := Value.levels_le_itemLevels (List.mem_map_of_mem (f := Prod.snd) he)
    exact note_decodes (hp e he) (by omega)
  have hentries := (times_decodes hnotes).map Metadata.ofList
  rw [Metadata.ofList_entries] at hentries
  intro rest
  simp only [Metadata.tokens, metadata, List.cons_append, Reading.enter, Option.bind_eq_bind,
    Option.bind_some]
  exact hentries rest

end Wire

end Conform
