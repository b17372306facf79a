import Conform.Numeral.Integer
import Conform.Proofs.Calendar.Digits
import Conform.Proofs.Registry.Identifier
import Mathlib.Data.Nat.Digits.Defs

/-!
Literals of integers. A literal has an optional sign, the mark of a base where one may be named, and
digits of the base, with single underscores between them; it is read exactly if its value fits.
-/

namespace Conform.Numeral

/-- A character stands for a digit of a base, a letter in either case. -/
def DigitOf (base : Nat) (c : Char) (d : Nat) : Prop :=
  d < base ∧ (c = d.digitChar ∨ c = d.digitChar.toUpper)

/-- Digits that follow others, each of which may have an underscore before it. -/
inductive Further (base : Nat) : List Char → List Nat → Prop
  | nil : Further base [] []
  | digit {c : Char} {d : Nat} {cs : List Char} {ds : List Nat} (h : DigitOf base c d)
    (hs : Further base cs ds) : Further base (c :: cs) (d :: ds)
  | apart {c : Char} {d : Nat} {cs : List Char} {ds : List Nat} (h : DigitOf base c d)
    (hs : Further base cs ds) : Further base ('_' :: c :: cs) (d :: ds)

/-- One or more digits. -/
inductive Digits (base : Nat) : List Char → List Nat → Prop
  | cons {c : Char} {d : Nat} {cs : List Char} {ds : List Nat} (h : DigitOf base c d)
    (hs : Further base cs ds) : Digits base (c :: cs) (d :: ds)

/-- An optional sign, and what it multiplies by. -/
inductive Sign : List Char → Int → Prop
  | none : Sign [] 1
  | plus : Sign ['+'] 1
  | minus : Sign ['-'] (-1)

/-- The mark of a base, which is ten unless another one may be named and is. -/
inductive Mark : Bool → List Char → Nat → Prop
  | decimal (bases : Bool) : Mark bases [] 10
  | binary {c : Char} (h : c = 'b' ∨ c = 'B') : Mark true ['0', c] 2
  | octal {c : Char} (h : c = 'o' ∨ c = 'O') : Mark true ['0', c] 8
  | hexadecimal {c : Char} (h : c = 'x' ∨ c = 'X') : Mark true ['0', c] 16

def Literal (bases : Bool) (text : List Char) (value : Int) : Prop :=
  ∃ sign mark body factor base ds, text = sign ++ (mark ++ body) ∧ Sign sign factor ∧
    Mark bases mark base ∧ Digits base body ds ∧ value = factor * Nat.ofDigits base ds.reverse

section

variable {base d : Nat} {c : Char}

theorem digitValue?_eq_some (h : digitValue? c = some d) (hd : d < 16) :
    c = d.digitChar ∨ c = d.digitChar.toUpper := by
  have hdecimal : ∀ d < 10, Char.ofNat (d + 48) = d.digitChar := by decide
  have hlower : ∀ d < 16, 10 ≤ d → Char.ofNat (d + 87) = d.digitChar := by decide
  have hupper : ∀ d < 16, 10 ≤ d → Char.ofNat (d + 55) = d.digitChar.toUpper := by decide
  have hchar : ∀ k n, c.toNat = n + k → c = Char.ofNat (n + k) := by
    intro k n hn
    rw [← hn, Char.ofNat_toNat]
  unfold digitValue? at h
  split at h
  next hdigit =>
    have hrange : 48 ≤ c.toNat ∧ c.toNat ≤ 57 := by
      simpa [Char.isDigit, UInt32.le_iff_toNat_le] using hdigit
    have hd' : c.toNat - 48 = d := Option.some.inj h
    have hc := hchar 48 d (by omega)
    exact Or.inl (hc.trans (hdecimal d (by omega)))
  next =>
    split at h
    next hletter =>
      have hrange := Unicode.isLower_iff.mp hletter
      have hd' : c.toNat - 87 = d := Option.some.inj h
      have hc := hchar 87 d (by omega)
      exact Or.inl (hc.trans (hlower d hd (by omega)))
    next =>
      split at h
      next hletter =>
        have hrange := Unicode.isUpper_iff.mp hletter
        have hd' : c.toNat - 55 = d := Option.some.inj h
        have hc := hchar 55 d (by omega)
        exact Or.inr (hc.trans (hupper d hd (by omega)))
      next => cases h

/-- What holds of the digits of all bases, in either case, holds of one that stands for a digit. -/
theorem DigitOf.holds {P : Char → Nat → Prop} (hbase : base ≤ 16) (h : DigitOf base c d)
    (hall : ∀ d < 16, P d.digitChar d ∧ P d.digitChar.toUpper d) : P c d := by
  obtain ⟨hd, hc⟩ := h
  obtain ⟨hlower, hupper⟩ := hall d (by omega)
  rcases hc with rfl | rfl
  · exact hlower
  · exact hupper

theorem DigitOf.digitValue? (hbase : base ≤ 16) (h : DigitOf base c d) :
    digitValue? c = some d := by
  apply h.holds hbase
  decide

theorem DigitOf.ne_underscore (hbase : base ≤ 16) (h : DigitOf base c d) : c ≠ '_' := by
  apply h.holds hbase
  decide

theorem DigitOf.ne_sign (hbase : base ≤ 16) (h : DigitOf base c d) : c ≠ '-' ∧ c ≠ '+' := by
  apply h.holds hbase
  decide

theorem DigitOf.isBlank (hbase : base ≤ 16) (h : DigitOf base c d) :
    Unicode.isBlank c = false := by
  apply h.holds hbase
  decide +kernel

theorem digitValue?_iff (hbase : base ≤ 16) :
    digitValue? c = some d ∧ d < base ↔ DigitOf base c d := by
  constructor
  · intro h
    exact ⟨h.2, digitValue?_eq_some h.1 (by omega)⟩
  · intro h
    exact ⟨h.digitValue? hbase, h.1⟩

/-- Digits are read in front of others, with the number that is before them. -/
def accumulate (base value : Nat) (ds : List Nat) : Nat :=
  ds.foldl (fun n d => base * n + d) value

section

variable {value n : Nat} {cs : List Char} {ds : List Nat}

theorem digitsFrom_sound (hbase : base ≤ 16) (h : digitsFrom base value cs = some n) :
    ∃ ds, Further base cs ds ∧ n = accumulate base value ds := by
  fun_induction digitsFrom base value cs with
  | case1 value => exact ⟨[], .nil, (Option.some.inj h).symm⟩
  | case2 value c rest d hd hlt ih =>
    obtain ⟨ds, hds, rfl⟩ := ih h
    have hc := (digitValue?_iff hbase).mp ⟨hd, hlt⟩
    exact ⟨d :: ds, .digit hc hds, rfl⟩
  | case3 => cases h
  | case4 => cases h
  | case5 value next rest hne hnone ih =>
    obtain ⟨ds, hds, rfl⟩ := ih h
    -- What follows the underscore is a digit, for it is no underscore.
    cases hds with
    | digit hc hs => exact ⟨_, .apart hc hs, rfl⟩
    | apart hc hs => exact absurd rfl hne
  | case6 => cases h
  | case7 => cases h

theorem digitsFrom_complete (hbase : base ≤ 16) (h : Further base cs ds) :
    digitsFrom base value cs = some (accumulate base value ds) := by
  induction h generalizing value with
  | nil => rfl
  | @digit c d cs ds hc _ ih =>
    have hvalue := hc.digitValue? hbase
    have hlt := hc.1
    simp only [digitsFrom, hvalue, if_pos hlt, ih]
    rfl
  | @apart c d cs ds hc _ ih =>
    have hvalue := hc.digitValue? hbase
    have hlt := hc.1
    have hne := hc.ne_underscore hbase
    have hnone : Numeral.digitValue? '_' = none := by decide
    simp only [digitsFrom, hnone, if_true, hvalue, if_neg hne, if_pos hlt, ih]
    rfl

theorem accumulate_zero : accumulate base 0 ds = Nat.ofDigits base ds.reverse := by
  rw [Nat.ofDigits_eq_foldr, List.foldr_reverse]
  simp [accumulate, Nat.add_comm]

/-- A run of digits is read exactly if it is one, as the number that the digits make up. -/
theorem magnitude?_eq_some_iff (hbase : base ≤ 16) :
    magnitude? base cs = some n ↔ ∃ ds, Digits base cs ds ∧ n = Nat.ofDigits base ds.reverse := by
  constructor
  · intro h
    cases cs with
    | nil => cases h
    | cons c rest =>
      simp only [magnitude?] at h
      split at h
      next => cases h
      next hne =>
        obtain ⟨ds, hds, rfl⟩ := digitsFrom_sound hbase h
        rw [accumulate_zero]
        cases hds with
        | digit hc hs => exact ⟨_, .cons hc hs, rfl⟩
        | apart hc hs => exact absurd rfl hne
  · rintro ⟨ds, hds, rfl⟩
    cases hds with
    | cons hc hs =>
      have hread : digitsFrom base 0 _ = _ := digitsFrom_complete hbase (.digit hc hs)
      rw [accumulate_zero] at hread
      simp only [magnitude?, if_neg (hc.ne_underscore hbase), hread]

end

/-- The number that digits stand for, after the mark of their base. -/
def unsigned? (bases : Bool) (cs : List Char) : Option Nat :=
  let (base, digits) := if bases then splitBase cs else (10, cs)
  magnitude? base digits

theorem splitBase_sound (cs : List Char) :
    ∃ mark, cs = mark ++ (splitBase cs).2 ∧ Mark true mark (splitBase cs).1 := by
  fun_cases splitBase cs with
  | case1 c rest h => exact ⟨['0', c], rfl, .hexadecimal h⟩
  | case2 c rest _ h => exact ⟨['0', c], rfl, .octal h⟩
  | case3 c rest _ _ h => exact ⟨['0', c], rfl, .binary h⟩
  | case4 => exact ⟨[], rfl, .decimal true⟩
  | case5 => exact ⟨[], rfl, .decimal true⟩

theorem Mark.base_le {bases : Bool} {mark : List Char} {base : Nat} (h : Mark bases mark base) :
    base ≤ 16 := by
  cases h <;> omega

/-- After a digit, no letter that marks a base comes next among decimal digits. -/
theorem Further.next_ne {rest : List Char} {ds : List Nat} (h : Further 10 (c :: rest) ds) :
    ∀ e ∈ ['x', 'X', 'o', 'O', 'b', 'B'], c ≠ e := by
  intro e he
  have hletters : ['x', 'X', 'o', 'O', 'b', 'B'].all (fun e =>
      e ≠ '_' ∧ 10 ≤ (digitValue? e).getD 0) = true := by decide
  have hletter := List.all_eq_true.mp hletters e he
  obtain ⟨hunderscore, hlarge⟩ := of_decide_eq_true hletter
  cases h with
  | apart _ _ => exact hunderscore.symm
  | digit hc _ =>
    have hvalue := hc.digitValue? (by omega)
    have hsmall := hc.1
    rintro rfl
    rw [hvalue, Option.getD_some] at hlarge
    omega

theorem splitBase_complete {mark body : List Char} {base : Nat} {ds : List Nat}
    (hm : Mark true mark base) (hd : Digits base body ds) :
    splitBase (mark ++ body) = (base, body) := by
  cases hm with
  | binary h => rcases h with rfl | rfl <;> rfl
  | octal h => rcases h with rfl | rfl <;> rfl
  | hexadecimal h => rcases h with rfl | rfl <;> rfl
  | decimal =>
    cases hd with
    | @cons c d cs ds _ hs =>
      rw [List.nil_append]
      by_cases hzero : c = '0'
      · subst hzero
        cases cs with
        | nil => rfl
        | cons mark rest =>
          have hne := hs.next_ne
          simp only [List.forall_mem_cons] at hne
          obtain ⟨h1, h2, h3, h4, h5, h6, _⟩ := hne
          simp only [splitBase, h1, h2, h3, h4, h5, h6, or_self, if_false]
      · unfold splitBase
        split
        next h => exact absurd (List.cons.inj h).1 hzero
        next => rfl

theorem unsigned?_eq_some_iff {bases : Bool} {cs : List Char} {n : Nat} :
    unsigned? bases cs = some n ↔ ∃ mark body base ds, cs = mark ++ body ∧
      Mark bases mark base ∧ Digits base body ds ∧ n = Nat.ofDigits base ds.reverse := by
  constructor
  · intro h
    cases bases with
    | false =>
      obtain ⟨ds, hds, hn⟩ := (magnitude?_eq_some_iff (by omega)).mp h
      exact ⟨[], cs, 10, ds, rfl, .decimal false, hds, hn⟩
    | true =>
      obtain ⟨mark, hcs, hmark⟩ := splitBase_sound cs
      obtain ⟨ds, hds, hn⟩ := (magnitude?_eq_some_iff hmark.base_le).mp h
      exact ⟨mark, _, _, ds, hcs, hmark, hds, hn⟩
  · rintro ⟨mark, body, base, ds, rfl, hmark, hds, hn⟩
    have hread := (magnitude?_eq_some_iff hmark.base_le).mpr ⟨ds, hds, hn⟩
    cases bases with
    | false =>
      cases hmark with
      | decimal => exact hread
    | true =>
      simp only [unsigned?, if_true, splitBase_complete hmark hds]
      exact hread

/-- A text that begins with no sign. -/
def Unsigned (cs : List Char) : Prop :=
  ∀ c ∈ cs.head?, c ≠ '-' ∧ c ≠ '+'

theorem sign_split (cs : List Char) :
    ∃ sign factor rest, cs = sign ++ rest ∧ Sign sign factor ∧ (sign = [] → Unsigned rest) := by
  cases cs with
  | nil =>
    refine ⟨[], 1, [], rfl, .none, ?_⟩
    intro _ c hc
    cases hc
  | cons c rest =>
    by_cases hminus : c = '-'
    · exact ⟨['-'], -1, rest, by rw [hminus]; rfl, .minus, by simp⟩
    by_cases hplus : c = '+'
    · exact ⟨['+'], 1, rest, by rw [hplus]; rfl, .plus, by simp⟩
    refine ⟨[], 1, c :: rest, rfl, .none, ?_⟩
    intro _ e he
    cases he
    exact ⟨hminus, hplus⟩

/-- A number in the range of 64 bits. -/
def word? (value : Int) : Option Int64 :=
  if Int64.minValue.toInt ≤ value ∧ value ≤ Int64.maxValue.toInt then some (Int64.ofInt value)
  else none

theorem integer?_of_sign {bases : Bool} {s : String} {sign rest : List Char} {factor : Int}
    (htext : Unicode.trim s.toList = sign ++ rest) (hsign : Sign sign factor)
    (hrest : sign = [] → Unsigned rest) :
    integer? bases s = (unsigned? bases rest).bind fun n => word? (factor * n) := by
  cases hsign with
  | plus => simp [integer?, htext, unsigned?, word?]
  | minus => simp [integer?, htext, unsigned?, word?]
  | none =>
    have hne := hrest rfl
    unfold integer?
    rw [htext, List.nil_append]
    split
    next negative digits hpair =>
      have hplain : (negative, digits) = (false, rest) := by
        rw [← hpair]
        split
        next => exact absurd rfl (hne '-' rfl).1
        next => exact absurd rfl (hne '+' rfl).2
        next => rfl
      obtain ⟨rfl, rfl⟩ := Prod.mk.inj hplain
      simp [unsigned?, word?]

theorem word?_eq_some_iff {value : Int} {n : Int64} :
    word? value = some n ↔ n.toInt = value ∧ -2 ^ 63 ≤ value ∧ value ≤ 2 ^ 63 - 1 := by
  have hmin : Int64.minValue.toInt = -2 ^ 63 := by decide
  have hmax : Int64.maxValue.toInt = 2 ^ 63 - 1 := by decide
  unfold word?
  rw [hmin, hmax]
  constructor
  · intro h
    split at h
    next hrange =>
      obtain rfl := Option.some.inj h
      refine ⟨Int64.toInt_ofInt_of_le ?_ ?_, hrange⟩
      · omega
      · omega
    next => cases h
  · rintro ⟨rfl, hlower, hupper⟩
    rw [if_pos ⟨hlower, hupper⟩, Int64.ofInt_toInt]

theorem Further.getLast {cs : List Char} {ds : List Nat} (h : Further base cs ds) :
    ∀ e ∈ cs.getLast?, ∃ d, DigitOf base e d := by
  induction h with
  | nil => simp
  | @digit c d cs ds hc _ ih =>
    cases cs with
    | nil => simpa using ⟨d, hc⟩
    | cons next rest => simpa using ih
  | @apart c d cs ds hc _ ih =>
    cases cs with
    | nil => simpa using ⟨d, hc⟩
    | cons next rest => simpa using ih

theorem Digits.further {cs : List Char} {ds : List Nat} (h : Digits base cs ds) :
    cs ≠ [] ∧ Further base cs ds := by
  cases h with
  | cons hc hs => exact ⟨List.cons_ne_nil _ _, .digit hc hs⟩

theorem Digits.head {cs : List Char} {ds : List Nat} (h : Digits base cs ds) :
    ∀ e ∈ cs.head?, ∃ d, DigitOf base e d := by
  cases h with
  | @cons c d cs ds hc hs => simpa using ⟨d, hc⟩

/-- A number with the mark of its base begins with a digit. -/
theorem Mark.head {bases : Bool} {mark body : List Char} {ds : List Nat}
    (hm : Mark bases mark base) (hd : Digits base body ds) :
    ∀ e ∈ (mark ++ body).head?, ∃ d, DigitOf 10 e d := by
  have hzero : DigitOf 10 '0' 0 := ⟨by omega, .inl rfl⟩
  cases hm with
  | decimal => exact hd.head
  | binary => simpa using ⟨0, hzero⟩
  | octal => simpa using ⟨0, hzero⟩
  | hexadecimal => simpa using ⟨0, hzero⟩

theorem Literal.unpadded {bases : Bool} {text : List Char} {value : Int}
    (h : Literal bases text value) : text ≠ [] ∧ Unicode.Unpadded text := by
  obtain ⟨sign, mark, body, factor, base, ds, rfl, hsign, hmark, hds, -⟩ := h
  obtain ⟨hne, hfurther⟩ := hds.further
  refine ⟨by simp [hne], ⟨?_, ?_⟩⟩
  · cases hsign with
    | none =>
      intro c hc
      obtain ⟨d, hd⟩ := hmark.head hds c hc
      exact hd.isBlank (by omega)
    | plus => simp; decide +kernel
    | minus => simp; decide +kernel
  · intro c hc
    have hlast : (sign ++ (mark ++ body)).getLast? = body.getLast? := by
      rw [← List.append_assoc, List.getLast?_append_of_ne_nil _ hne]
    rw [hlast] at hc
    obtain ⟨d, hd⟩ := hfurther.getLast c hc
    exact hd.isBlank hmark.base_le

theorem integer?_eq_some_iff {bases : Bool} {s : String} {n : Int64} :
    integer? bases s = some n ↔ ∃ value, Literal bases (Unicode.trim s.toList) value ∧
      n.toInt = value ∧ -2 ^ 63 ≤ value ∧ value ≤ 2 ^ 63 - 1 := by
  constructor
  · intro h
    obtain ⟨sign, factor, rest, htext, hsign, hrest⟩ := sign_split (Unicode.trim s.toList)
    rw [integer?_of_sign htext hsign hrest] at h
    obtain ⟨m, hm, hn⟩ := Option.bind_eq_some_iff.mp h
    obtain ⟨mark, body, base, ds, rfl, hmark, hds, rfl⟩ := unsigned?_eq_some_iff.mp hm
    refine ⟨_, ?_, word?_eq_some_iff.mp hn⟩
    exact ⟨sign, mark, body, factor, base, ds, htext, hsign, hmark, hds, rfl⟩
  · rintro ⟨value, ⟨sign, mark, body, factor, base, ds, htext, hsign, hmark, hds, rfl⟩, hn⟩
    have hrest : sign = [] → Unsigned (mark ++ body) := by
      intro _ c hc
      obtain ⟨d, hd⟩ := hmark.head hds c hc
      exact hd.ne_sign (by omega)
    have hread := unsigned?_eq_some_iff.mpr ⟨mark, body, base, ds, rfl, hmark, hds, rfl⟩
    rw [integer?_of_sign htext hsign hrest, hread]
    exact word?_eq_some_iff.mpr hn

theorem further_of_digits {cs : List Char} (h : ∀ c ∈ cs, c.isDigit = true) :
    Further 10 cs (cs.map fun c => c.toNat - 48) := by
  induction cs with
  | nil => exact .nil
  | cons c cs ih =>
    have hc := h c List.mem_cons_self
    have hrange : 48 ≤ c.toNat ∧ c.toNat ≤ 57 := by
      simpa [Char.isDigit, UInt32.le_iff_toNat_le] using hc
    have hvalue : digitValue? c = some (c.toNat - 48) := if_pos hc
    have hdigit := (digitValue?_iff (by omega)).mp ⟨hvalue, (by omega : c.toNat - 48 < 10)⟩
    exact .digit hdigit (ih fun c' hc' => h c' (List.mem_cons_of_mem _ hc'))

theorem digits_toDigits (k : Nat) :
    ∃ ds, Digits 10 (Nat.toDigits 10 k) ds ∧ Nat.ofDigits 10 ds.reverse = k := by
  have hall : ∀ c ∈ Nat.toDigits 10 k, c.isDigit = true := fun c hc =>
    Nat.isDigit_of_mem_toDigits (by omega) (by omega) hc
  obtain ⟨c, rest, htext⟩ := List.exists_cons_of_ne_nil (Nat.toDigits_ne_nil (b := 10) (n := k))
  have hfurther := further_of_digits hall
  refine ⟨(Nat.toDigits 10 k).map fun c => c.toNat - 48, ?_, ?_⟩
  · rw [htext] at hfurther ⊢
    cases hfurther with
    | digit hc hs => exact .cons hc hs
    | apart _ _ =>
      have hunderscore : '_'.isDigit = true := hall '_' (by rw [htext]; exact List.mem_cons_self)
      cases hunderscore
  · rw [← accumulate_zero, accumulate, List.foldl_map]
    exact Nat.ofDigitChars_ten_toDigits

theorem literal_toString (bases : Bool) (value : Int) :
    Literal bases (toString value).toList value := by
  cases value with
  | ofNat k =>
    obtain ⟨ds, hds, hk⟩ := digits_toDigits k
    refine ⟨[], [], _, 1, 10, ds, Nat.toList_repr, .none, .decimal bases, hds, ?_⟩
    rw [hk, one_mul]
    rfl
  | negSucc k =>
    obtain ⟨ds, hds, hk⟩ := digits_toDigits (k + 1)
    refine ⟨['-'], [], _, -1, 10, ds, ?_, .minus, .decimal bases, hds, ?_⟩
    · rw [Int.toString_eq_repr, Int.repr, String.toList_append]
      simp
    · rw [hk]
      omega

end

/-- A text is read as an integer exactly if it is a literal of it, with blanks around it, and the
integer has 64 bits; and every integer of 64 bits is read back from its own text. -/
theorem integer?_exact (bases : Bool) :
    (∀ (s : String) (value : Int), (∃ n, integer? bases s = some n ∧ n.toInt = value) ↔
      (∃ before text after, s.toList = before ++ text ++ after ∧
        (∀ c ∈ before, Unicode.isBlank c = true) ∧ (∀ c ∈ after, Unicode.isBlank c = true) ∧
        Literal bases text value) ∧ -2 ^ 63 ≤ value ∧ value ≤ 2 ^ 63 - 1) ∧
      ∀ n : Int64, integer? bases (toString n.toInt) = some n := by
  have hread : ∀ (s : String) (value : Int),
      (∃ n, integer? bases s = some n ∧ n.toInt = value) ↔
        (∃ before text after, s.toList = before ++ text ++ after ∧
          (∀ c ∈ before, Unicode.isBlank c = true) ∧ (∀ c ∈ after, Unicode.isBlank c = true) ∧
          Literal bases text value) ∧ -2 ^ 63 ≤ value ∧ value ≤ 2 ^ 63 - 1 := by
    intro s value
    constructor
    · rintro ⟨n, hn, rfl⟩
      obtain ⟨value, hliteral, rfl, hrange⟩ := integer?_eq_some_iff.mp hn
      obtain ⟨before, after, hbefore, hafter, htext⟩ := Unicode.trim_split s.toList
      exact ⟨⟨before, _, after, htext, hbefore, hafter, hliteral⟩, hrange⟩
    · rintro ⟨⟨before, text, after, htext, hbefore, hafter, hliteral⟩, hrange⟩
      obtain ⟨hne, hunpadded⟩ := hliteral.unpadded
      have htrim := Unicode.trim_blanks hbefore hafter hne hunpadded
      rw [← htext] at htrim
      have hvalue : (Int64.ofInt value).toInt = value := by
        refine Int64.toInt_ofInt_of_le ?_ ?_
        · simpa using hrange.1
        · omega
      have hn := integer?_eq_some_iff.mpr ⟨value, htrim ▸ hliteral, hvalue, hrange⟩
      exact ⟨_, hn, hvalue⟩
  refine ⟨hread, ?_⟩
  intro n
  have hrange : -2 ^ 63 ≤ n.toInt ∧ n.toInt ≤ 2 ^ 63 - 1 := by
    have hlower := n.le_toInt
    have hupper := n.toInt_lt
    omega
  have hliteral := literal_toString bases n.toInt
  obtain ⟨m, hm, hvalue⟩ := (hread (toString n.toInt) n.toInt).mpr
    ⟨⟨[], _, [], by simp, by simp, by simp, hliteral⟩, hrange⟩
  rw [hm, Int64.toInt_inj.mp hvalue]

example : integer? true "\t-0xf_F " = some (-255) := by decide +kernel

end Conform.Numeral
