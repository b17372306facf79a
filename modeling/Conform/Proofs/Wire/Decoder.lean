import Conform.Proofs.Wire.Token
import Conform.Wire.Decoder

namespace Conform.Wire

variable {α β σ : Type}

/-- A decoder finds a value in its tokens and leaves what follows them. -/
def Decodes (d : Decoder α) (data : List Token) (a : α) : Prop :=
  ∀ rest, d (data ++ rest) = some (a, rest)

theorem Decodes.map {d : Decoder α} {data : List Token} {a : α} (h : Decodes d data a)
    (f : α → β) : Decodes (d.map f) data (f a) := by
  intro rest
  rw [Decoder.map, h rest]
  rfl

theorem text_decodes (s : String) : Decodes text [.text s] s :=
  fun _ => rfl

theorem bool_decodes (b : Bool) : Decodes bool [.bool b] b :=
  fun _ => rfl

theorem float_decodes (x : Binary64) : Decodes float [.float x] x :=
  fun _ => rfl

theorem parsed_decodes {read : String → Option α} {s : String} {a : α} (h : read s = some a) :
    Decodes (parsed read) [.text s] a := by
  intro rest
  simp [parsed, Decoder.one, h]

theorem wholeNumber?_ofInt (n : Int) : wholeNumber? (.ofInt n) = some n := by
  cases n <;> rfl

theorem int_decodes (n : Int64) : Decodes int [.ofInt n.toInt] n := by
  intro rest
  have hrange : Int64.minValue.toInt ≤ n.toInt ∧ n.toInt ≤ Int64.maxValue.toInt :=
    ⟨n.minValue_le_toInt, n.toInt_le⟩
  simp only [int, Decoder.one, List.cons_append, List.nil_append, wholeNumber?_ofInt,
    Option.bind_eq_bind, Option.bind_some]
  rw [if_pos hrange, Int64.ofInt_toInt]
  rfl

/-- Values that are decoded one by one are decoded together. -/
theorem times_decodes {d : Decoder α} {write : α → List Token} {as : List α}
    (h : ∀ a ∈ as, Decodes d (write a) a) :
    Decodes (Decoder.times d as.length) (as.flatMap write) as := by
  induction as with
  | nil => exact fun _ => rfl
  | cons a as ih =>
    obtain ⟨ha, has⟩ := List.forall_mem_cons.mp h
    intro rest
    simp only [List.flatMap_cons, List.length_cons, List.append_assoc, Decoder.times, ha _,
      Option.bind_eq_bind, Option.bind_some, ih has rest]
    rfl

section

variable {level : Nat}

theorem items_decodes {d : Reading → Decoder α} {write : α → List Token} {as : List α}
    (h : ∀ a ∈ as, Decodes (d (.direct level)) (write a) a) :
    Decodes (items (.direct (level + 1)) d) (.array as.length :: as.flatMap write) as := by
  intro rest
  have htimes := times_decodes h rest
  simpa [items, Reading.enter] using htimes

theorem pair_decodes {first : Reading → Decoder α} {second : Reading → Decoder β}
    {data data' : List Token} {a : α} {b : β} (ha : Decodes (first (.direct level)) data a)
    (hb : Decodes (second (.direct level)) data' b) :
    Decodes (pair (.direct (level + 1)) first second) (.array 2 :: data ++ data') (a, b) := by
  intro rest
  simp only [pair, List.cons_append, List.append_assoc, Reading.enter, ha _, hb _,
    Option.bind_eq_bind, Option.bind_some]
  rfl

end

/-- Where names differ, each is found at its own place. -/
theorem idxOf?_name {named : List (String × α)} (hn : (named.map Prod.fst).Nodup) {name : String}
    {a : α} (h : (name, a) ∈ named) :
    ∃ i, (named.map Prod.fst).idxOf? name = some i ∧ named[i]? = some (name, a) := by
  induction named with
  | nil => simp at h
  | cons p named ih =>
    obtain ⟨hp, hnamed⟩ := List.nodup_cons.mp hn
    rcases List.mem_cons.mp h with rfl | h
    · exact ⟨0, by simp [List.idxOf?_cons], rfl⟩
    · obtain ⟨i, hi, ha⟩ := ih hnamed h
      have hne : p.1 ≠ name := by
        rintro rfl
        exact hp (List.mem_map.mpr ⟨_, h, rfl⟩)
      exact ⟨i + 1, by simp [List.idxOf?_cons, hne, hi], ha⟩

/-- A decoder is as good with a bound on its depth, where the depth is at most the number of
tokens. -/
theorem decodes_of_within (within : Nat → Decoder α) {data : List Token} {a : α} (hne : data ≠ [])
    (h : ∀ fuel, data.length ≤ fuel + 1 → Decodes (within (fuel + 1)) data a) :
    Decodes (fun ts => within ts.length ts) data a := by
  intro rest
  have hpos := List.length_pos_iff.mpr hne
  have hlength : (data ++ rest).length = data.length + rest.length := List.length_append
  obtain ⟨fuel, hfuel⟩ : ∃ n, (data ++ rest).length = n + 1 :=
    ⟨(data ++ rest).length - 1, by omega⟩
  dsimp only
  rw [hfuel]
  exact h fuel (by omega) rest

theorem label_text (r : Reading) (names : List String) (name : String) (ts : List Token) :
    label r names (.text name :: ts) = some (names.idxOf? name, ts) :=
  rfl

section

variable {r : Reading} {variants : List (String × Variant α)} {name : String}

theorem find_name (hn : (variants.map Prod.fst).Nodup) {v : Variant α} (h : (name, v) ∈ variants)
    (ts : List Token) : variant.find r variants (.text name :: ts) = some (v, ts) := by
  obtain ⟨i, hi, hv⟩ := idxOf?_name hn h
  simp only [variant.find, label_text, hi, hv, Option.bind_eq_bind, Option.bind_some]
  rfl

theorem variant_data_decodes (hn : (variants.map Prod.fst).Nodup) {d : Decoder α}
    (h : (name, .data d) ∈ variants) {data : List Token} {a : α} (hd : Decodes d data a) :
    Decodes (variant r variants) (.map 1 :: .text name :: data) a := by
  intro rest
  simp only [List.cons_append, variant, variant.marked, find_name hn h, Option.bind_eq_bind,
    Option.bind_some, hd rest]

theorem variant_unit_decodes (hn : (variants.map Prod.fst).Nodup) {a : α}
    (h : (name, .unit a) ∈ variants) : Decodes (variant r variants) [.text name] a := by
  intro rest
  simp only [List.cons_append, List.nil_append, variant, variant.isName, variant.alone,
    find_name hn h, ↓reduceIte, Option.bind_eq_bind, Option.bind_some]
  rfl

end

/-- A field of a record as it is written: its name, its content, and what it adds to what is
known. -/
structure Written (σ : Type) where
  name : String
  data : List Token
  update : σ → σ

namespace Written

/-- The field is one of those that a record may have, and is decoded as it was written. -/
def Fits (fields : List (Field σ)) (w : Written σ) : Prop :=
  ∃ d, (w.name, d) ∈ fields ∧ ∀ known, Decodes (d known) w.data (w.update known)

def tokens (w : Written σ) : List Token :=
  .text w.name :: w.data

end Written

section

variable {fields : List (Field σ)} {written : List (Written σ)}

/-- Fields of different names are decoded one after another, in whatever order they are written. -/
theorem namedFields_written (r : Reading) (hn : (fields.map Prod.fst).Nodup)
    (hw : (written.map Written.name).Nodup) (hfits : ∀ w ∈ written, w.Fits fields)
    {seen : List Nat} (hseen : ∀ w ∈ written, ∀ i ∈ seen, (fields.map Prod.fst)[i]? ≠ some w.name)
    (known : σ) :
    Decodes (namedFields r fields written.length seen known) (written.flatMap Written.tokens)
      (written.foldl (fun known w => w.update known) known) := by
  induction written generalizing seen known with
  | nil => exact fun _ => rfl
  | cons w written ih =>
    obtain ⟨hname, hnames⟩ := List.nodup_cons.mp hw
    obtain ⟨⟨d, hd, hdata⟩, hfits⟩ := List.forall_mem_cons.mp hfits
    obtain ⟨hseenw, hseen⟩ := List.forall_mem_cons.mp hseen
    obtain ⟨i, hi, hfield⟩ := idxOf?_name hn hd
    have hnew : i ∉ seen := fun hmem => hseenw i hmem (by simp [hfield])
    have hseen' : ∀ v ∈ written, ∀ j ∈ i :: seen, (fields.map Prod.fst)[j]? ≠ some v.name := by
      intro v hv j hj
      rcases List.mem_cons.mp hj with rfl | hj
      · intro heq
        have hsame : w.name = v.name := by simpa [hfield] using heq
        exact hname (hsame ▸ List.mem_map_of_mem hv)
      · exact hseen v hv j hj
    intro rest
    have hrest := ih hnames hfits hseen' (w.update known) rest
    simp only [List.flatMap_cons, List.length_cons, Written.tokens, List.cons_append,
      List.append_assoc, namedFields, label_text, hi, hnew, hfield, hdata known _,
      Option.bind_eq_bind, Option.bind_some, ↓reduceIte] at hrest ⊢
    exact hrest

end

section

variable (fields : Reading → List (Field σ)) {written : List (Written σ)} {level : Nat}

theorem mapRecord_written (hn : ((fields (.direct level)).map Prod.fst).Nodup)
    (hw : (written.map Written.name).Nodup)
    (hfits : ∀ w ∈ written, w.Fits (fields (.direct level))) (start : σ) :
    Decodes (mapRecord (.direct (level + 1)) fields start)
      (.map written.length :: written.flatMap Written.tokens)
      (written.foldl (fun known w => w.update known) start) := by
  intro rest
  have hseen : ∀ w ∈ written, ∀ i ∈ ([] : List Nat),
      ((fields (.direct level)).map Prod.fst)[i]? ≠ some w.name := by simp
  have hfields := namedFields_written (.direct level) hn hw hfits hseen start rest
  simpa [mapRecord, Reading.enter] using hfields

theorem record_written (hn : ((fields (.direct level)).map Prod.fst).Nodup)
    (hw : (written.map Written.name).Nodup)
    (hfits : ∀ w ∈ written, w.Fits (fields (.direct level))) (start : σ) :
    Decodes (record (.direct (level + 1)) fields start)
      (.map written.length :: written.flatMap Written.tokens)
      (written.foldl (fun known w => w.update known) start) := by
  intro rest
  have hmap := mapRecord_written fields hn hw hfits start rest
  simpa [record] using hmap

end

end Conform.Wire
