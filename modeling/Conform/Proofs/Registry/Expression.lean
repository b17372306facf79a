import Conform.Proofs.Registry.Identifier
import Conform.Proofs.Run
import Conform.Ty.Build

namespace Conform

namespace Identifier

/-- A character other than those that take an identifier apart. -/
def Ordinary (c : Char) : Prop :=
  c ≠ '<' ∧ c ≠ '>' ∧ c ≠ ','

instance : DecidablePred Ordinary :=
  fun _ => inferInstanceAs (Decidable (_ ∧ _ ∧ _))

def Blank (cs : List Char) : Prop :=
  ∀ c ∈ cs, Unicode.isBlank c = true

/-- The text of an identifier without parameters. -/
structure Plain (cs : List Char) : Prop where
  nonempty : cs ≠ []
  ordinary : ∀ c ∈ cs, Ordinary c
  unpadded : Unicode.Unpadded cs

theorem isBlank_special {c : Char} (h : c = '<' ∨ c = '>' ∨ c = ',') :
    Unicode.isBlank c = false := by
  rcases h with rfl | rfl | rfl
  · exact Unicode.isBlank_of_graphic (by decide)
  · exact Unicode.isBlank_of_graphic (by decide)
  · exact Unicode.isBlank_of_graphic (by decide)

theorem blank_nil : Blank [] := by
  intro c hc
  cases hc

theorem Blank.ordinary {cs : List Char} (h : Blank cs) : ∀ c ∈ cs, Ordinary c := by
  intro c hc
  have hspecial : ¬(c = '<' ∨ c = '>' ∨ c = ',') := by
    intro hs
    have := h c hc
    rw [isBlank_special hs] at this
    cases this
  simpa [Ordinary, not_or] using hspecial

/-- Identifiers of ordinary graphic characters are plain. -/
theorem plain_of_graphic {cs : List Char} (hne : cs ≠ [])
    (h : cs.all (fun c => 33 ≤ c.toNat ∧ c.toNat < 127 ∧ Ordinary c) = true) : Plain cs := by
  have hall : ∀ c ∈ cs, 33 ≤ c.toNat ∧ c.toNat < 127 ∧ Ordinary c := by simpa using h
  have hgraphic : ∀ c ∈ cs, Unicode.isBlank c = false := by
    intro c hc
    obtain ⟨hfirst, hlast, -⟩ := hall c hc
    exact Unicode.isBlank_of_graphic ⟨hfirst, hlast⟩
  constructor
  · exact hne
  · exact fun c hc => (hall c hc).2.2
  · constructor
    · exact fun c hc => hgraphic c (List.mem_of_head? hc)
    · exact fun c hc => hgraphic c (List.mem_of_getLast? hc)

theorem params?_plain {name : String} (h : Plain name.toList) : params? name = none := by
  cases hp : params? name with
  | none => rfl
  | some parts =>
    obtain ⟨base, params⟩ := parts
    obtain ⟨outside, inside, htext, -⟩ := params?_eq_some hp
    have hmem : '<' ∈ name.toList := by simp [htext]
    exact absurd rfl (h.ordinary '<' hmem).1

/-- An identifier with parameters is read as its base and what its brackets hold. -/
theorem params?_text {base gap left inside right : List Char} (hbase : Plain base)
    (hgap : Blank gap) (hleft : Blank left) (hright : Blank right) (hne : inside ≠ [])
    (hinside : Unicode.Unpadded inside) :
    params? (String.ofList (base ++ gap ++ '<' :: (left ++ inside ++ right ++ ['>']))) =
      some (String.ofList base, (splitParams 0 [] inside).map String.ofList) := by
  have houtside : ∀ c ∈ base ++ gap, decide (c ≠ '<') = true := by
    intro c hc
    rcases List.mem_append.mp hc with hc | hc
    · simpa using (hbase.ordinary c hc).1
    · simpa using (hgap.ordinary c hc).1
  have htake : (base ++ gap ++ '<' :: (left ++ inside ++ right ++ ['>'])).takeWhile (· ≠ '<') =
      base ++ gap := by
    rw [List.takeWhile_append_of_pos houtside, List.takeWhile_cons_of_neg (by simp),
      List.append_nil]
  have htrim := Unicode.trim_blanks blank_nil hgap hbase.nonempty hbase.unpadded
  rw [List.nil_append] at htrim
  have hbody := Unicode.trim_blanks hleft hright hne hinside
  unfold params?
  dsimp only
  rw [String.toList_ofList, htake, List.drop_left]
  dsimp only
  rw [List.getLast?_concat, if_pos rfl, List.dropLast_concat, htrim, hbody, if_neg]
  simp [hbase.nonempty, hne]

/-- In so many brackets or more, a text is read as a piece of one part. -/
def Passes (least : Nat) (cs : List Char) : Prop :=
  ∀ depth part rest, least ≤ depth →
    splitParams depth part (cs ++ rest) = splitParams depth (cs.reverse ++ part) rest

theorem Passes.deeper {least more : Nat} {cs : List Char} (h : Passes least cs)
    (hle : least ≤ more) : Passes more cs :=
  fun depth part rest hdepth => h depth part rest (by omega)

theorem Passes.append {least : Nat} {cs ds : List Char} (hc : Passes least cs)
    (hd : Passes least ds) : Passes least (cs ++ ds) := by
  intro depth part rest hdepth
  rw [List.append_assoc, hc depth part _ hdepth, hd depth _ rest hdepth, List.reverse_append,
    List.append_assoc]

theorem passes_ordinary {cs : List Char} (h : ∀ c ∈ cs, Ordinary c) : Passes 0 cs := by
  intro depth part rest _
  induction cs generalizing part with
  | nil => rfl
  | cons c cs ih =>
    obtain ⟨⟨hopen, hclose, hcomma⟩, hcs⟩ := List.forall_mem_cons.mp h
    rw [List.cons_append, splitParams, if_neg (by simp [hcomma]), if_neg hopen, if_neg hclose,
      ih hcs, List.reverse_cons, List.append_assoc, List.singleton_append]

theorem passes_comma : Passes 1 [','] := by
  intro depth part rest hdepth
  have hne : ¬(depth = 0) := by omega
  simp [splitParams, hne]

theorem Passes.brackets {cs : List Char} (h : Passes 1 cs) : Passes 0 ('<' :: (cs ++ ['>'])) := by
  intro depth part rest _
  have hopen : splitParams depth part ('<' :: (cs ++ ['>'] ++ rest)) =
      splitParams (depth + 1) ('<' :: part) (cs ++ '>' :: rest) := by
    rw [splitParams, if_neg (by simp), if_pos rfl, List.append_assoc, List.singleton_append]
  have hclose : ∀ part, splitParams (depth + 1) part ('>' :: rest) =
      splitParams depth ('>' :: part) rest := by
    intro part
    rw [splitParams, if_neg (by simp), if_neg (by simp), if_pos rfl, Nat.add_sub_cancel]
  rw [List.cons_append, hopen, h (depth + 1) _ _ (by omega), hclose]
  simp

theorem Passes.splitParams_last {cs : List Char} (h : Passes 0 cs) :
    splitParams 0 [] cs = [Unicode.trim cs] := by
  have hread := h 0 [] [] (Nat.le_refl 0)
  rw [List.append_nil, List.append_nil] at hread
  rw [hread, splitParams, List.reverse_reverse]

theorem Passes.splitParams_comma {cs : List Char} (h : Passes 0 cs) (rest : List Char) :
    splitParams 0 [] (cs ++ ',' :: rest) = Unicode.trim cs :: splitParams 0 [] rest := by
  rw [h 0 [] _ (Nat.le_refl 0), splitParams, if_pos ⟨rfl, rfl⟩, List.append_nil,
    List.reverse_reverse]

theorem Plain.unpadded_brackets {cs : List Char} (h : Plain cs) (gap inside : List Char) :
    Unicode.Unpadded (cs ++ gap ++ '<' :: (inside ++ ['>'])) := by
  have hclose : Unicode.isBlank '>' = false := isBlank_special (.inr (.inl rfl))
  have hlast : Unicode.Unpadded ['>'] := ⟨by simpa using hclose, by simpa using hclose⟩
  have hjoin := h.unpadded.join hlast h.nonempty (by simp) (gap ++ '<' :: inside)
  simpa using hjoin

end Identifier

/-- What an identifier stands for: a name, or the type of a name with one or two parameters. -/
inductive Expression where
  | name (n : String)
  | one (n : String) (member : Expression)
  | two (n : String) (key value : Expression)

namespace Expression

open Identifier

def names : Expression → List String
  | name n => [n]
  | one n member => n :: member.names
  | two n key value => n :: (key.names ++ value.names)

/-- The type that is built of the types of the names. -/
def eval (fetch : String → Result Ty) : Expression → Result Ty
  | name n => fetch n
  | one n member => do
    let b ← fetch n
    let m ← member.eval fetch
    b.ofMember m
  | two n key value => do
    let b ← fetch n
    let k ← key.eval fetch
    let v ← value.eval fetch
    b.ofMap k v

theorem eval_congr {f g : String → Result Ty} {e : Expression} (h : ∀ n ∈ e.names, f n = g n) :
    e.eval f = e.eval g := by
  induction e with
  | name n => exact h n List.mem_cons_self
  | one n member ih =>
    obtain ⟨hn, hmember⟩ := List.forall_mem_cons.mp h
    rw [eval, eval, hn, ih hmember]
  | two n key value ihk ihv =>
    obtain ⟨hn, hparams⟩ := List.forall_mem_cons.mp h
    obtain ⟨hkey, hvalue⟩ := List.forall_mem_append.mp hparams
    rw [eval, eval, hn, ihk hkey, ihv hvalue]

/-- An expression has a value only if all its names have one. -/
theorem fetched_of_eval {fetch : String → Result Ty} {e : Expression} {ty : Ty}
    (h : e.eval fetch = .ok ty) : ∀ n ∈ e.names, ∃ t, fetch n = .ok t := by
  induction e generalizing ty with
  | name n =>
    intro m hm
    rw [List.mem_singleton.mp hm]
    exact ⟨ty, h⟩
  | one n member ih =>
    obtain ⟨b, hb, h⟩ := bind_eq_ok.mp h
    obtain ⟨m, hm, -⟩ := bind_eq_ok.mp h
    exact List.forall_mem_cons.mpr ⟨⟨b, hb⟩, ih hm⟩
  | two n key value ihk ihv =>
    obtain ⟨b, hb, h⟩ := bind_eq_ok.mp h
    obtain ⟨k, hk, h⟩ := bind_eq_ok.mp h
    obtain ⟨v, hv, -⟩ := bind_eq_ok.mp h
    exact List.forall_mem_cons.mpr ⟨⟨b, hb⟩, List.forall_mem_append.mpr ⟨ihk hk, ihv hv⟩⟩

/-- The texts of an expression. Blanks may stand before brackets and around parameters. -/
inductive Written : Expression → List Char → Prop
  | name {n : String} (plain : Plain n.toList) : Written (.name n) n.toList
  | one {n : String} {member : Expression} {gap left cs right : List Char} (plain : Plain n.toList)
    (hgap : Blank gap) (hleft : Blank left) (hm : Written member cs) (hright : Blank right) :
    Written (.one n member) (n.toList ++ gap ++ '<' :: (left ++ cs ++ right ++ ['>']))
  | two {n : String} {key value : Expression} {gap left ks before after vs right : List Char}
    (plain : Plain n.toList) (hgap : Blank gap) (hleft : Blank left) (hk : Written key ks)
    (hbefore : Blank before) (hafter : Blank after) (hv : Written value vs) (hright : Blank right) :
    Written (.two n key value)
      (n.toList ++ gap ++ '<' :: (left ++ (ks ++ before ++ ',' :: (after ++ vs)) ++ right ++ ['>']))

theorem Written.plain_of_mem_names {e : Expression} {cs : List Char} (h : Written e cs) :
    ∀ n ∈ e.names, Plain n.toList := by
  induction h with
  | name plain => simpa [names] using plain
  | one plain _ _ _ _ ih => exact List.forall_mem_cons.mpr ⟨plain, ih⟩
  | two plain _ _ _ _ _ _ _ ihk ihv =>
    exact List.forall_mem_cons.mpr ⟨plain, List.forall_mem_append.mpr ⟨ihk, ihv⟩⟩

theorem Written.nonempty {e : Expression} {cs : List Char} (h : Written e cs) : cs ≠ [] := by
  cases h with
  | name plain => exact plain.nonempty
  | one => simp
  | two => simp

theorem Written.unpadded {e : Expression} {cs : List Char} (h : Written e cs) :
    Unicode.Unpadded cs := by
  cases h with
  | name plain => exact plain.unpadded
  | one plain => exact plain.unpadded_brackets _ _
  | two plain => exact plain.unpadded_brackets _ _

/-- A text of an expression is read as one piece. -/
theorem Written.passes {e : Expression} {cs : List Char} (h : Written e cs) : Passes 0 cs := by
  induction h with
  | name plain => exact passes_ordinary plain.ordinary
  | one plain hgap hleft _ hright ih =>
    have hinside := ((passes_ordinary hleft.ordinary).append ih).append
      (passes_ordinary hright.ordinary)
    have hbase := (passes_ordinary plain.ordinary).append (passes_ordinary hgap.ordinary)
    exact hbase.append (hinside.deeper (by omega)).brackets
  | two plain hgap hleft _ hbefore hafter _ hright ihk ihv =>
    have hkey := ihk.append (passes_ordinary hbefore.ordinary)
    have hvalue := (passes_ordinary hafter.ordinary).append ihv
    have hparams := (hkey.deeper (by omega)).append (passes_comma.append (hvalue.deeper (by omega)))
    have hinside := (((passes_ordinary hleft.ordinary).deeper (by omega)).append hparams).append
      ((passes_ordinary hright.ordinary).deeper (by omega))
    have hbase := (passes_ordinary plain.ordinary).append (passes_ordinary hgap.ordinary)
    exact hbase.append hinside.brackets

theorem Written.trim_eq {e : Expression} {cs left right : List Char} (h : Written e cs)
    (hleft : Blank left) (hright : Blank right) : Unicode.trim (left ++ cs ++ right) = cs :=
  Unicode.trim_blanks hleft hright h.nonempty h.unpadded

/-- One parameter is read back. -/
theorem Written.params?_one {n : String} {member : Expression} {gap left cs right : List Char}
    (plain : Plain n.toList) (hgap : Blank gap) (hleft : Blank left) (hm : Written member cs)
    (hright : Blank right) :
    params? (String.ofList (n.toList ++ gap ++ '<' :: (left ++ cs ++ right ++ ['>']))) =
      some (n, [String.ofList cs]) := by
  have htrim := hm.trim_eq blank_nil blank_nil
  rw [List.nil_append, List.append_nil] at htrim
  rw [params?_text plain hgap hleft hright hm.nonempty hm.unpadded, hm.passes.splitParams_last,
    htrim, String.ofList_toList, List.map_singleton]

/-- Two parameters are read back. -/
theorem Written.params?_two {n : String} {key value : Expression}
    {gap left ks before after vs right : List Char} (plain : Plain n.toList) (hgap : Blank gap)
    (hleft : Blank left) (hk : Written key ks) (hbefore : Blank before) (hafter : Blank after)
    (hv : Written value vs) (hright : Blank right) :
    params? (String.ofList (n.toList ++ gap ++
        '<' :: (left ++ (ks ++ before ++ ',' :: (after ++ vs)) ++ right ++ ['>']))) =
      some (n, [String.ofList ks, String.ofList vs]) := by
  have hinside : Unicode.Unpadded (ks ++ before ++ ',' :: (after ++ vs)) := by
    have hjoin := hk.unpadded.join hv.unpadded hk.nonempty hv.nonempty (before ++ ',' :: after)
    simpa using hjoin
  have hkey := hk.passes.append (passes_ordinary hbefore.ordinary)
  have hvalue := (passes_ordinary hafter.ordinary).append hv.passes
  have hkeyTrim := hk.trim_eq blank_nil hbefore
  have hvalueTrim := hv.trim_eq hafter blank_nil
  rw [List.nil_append] at hkeyTrim
  rw [List.append_nil] at hvalueTrim
  rw [params?_text plain hgap hleft hright (by simp) hinside, hkey.splitParams_comma,
    hvalue.splitParams_last, hkeyTrim, hvalueTrim, String.ofList_toList]
  rfl

end Expression

end Conform
