import Conform.Family.Catalog
import Conform.Proofs.Ty.Filling
import Conform.Proofs.Ty.Preserved

/-!
What a type makes of the default that it is given. Absent input is taken to the default as it is,
although the type accepts it only after its conversions and may itself make something else of it.
-/

namespace Conform

/-- A value with nothing undefined in it, and with different keys in its hashes. -/
inductive Value.Whole : Value → Prop
  | array {items : List Value} (h : ∀ item ∈ items, Whole item) : Whole (.array items)
  | hash {entries : Entries} (hdistinct : Entries.Distinct entries)
    (hkeys : ∀ e ∈ entries, Whole e.1) (hvalues : ∀ e ∈ entries, Whole e.2) : Whole (.hash entries)
  | scalar {v : Value} (hdefined : v.isUndefined = false) (harray : v.array? = none)
    (hhash : v.hash? = none) : Whole v

namespace Value

theorem Whole.isUndefined {v : Value} (h : v.Whole) : v.isUndefined = false := by
  cases h with
  | array h => rfl
  | hash hdistinct hkeys hvalues => rfl
  | scalar hdefined harray hhash => exact hdefined

theorem Whole.items {items : List Value} (h : (Value.array items).Whole) :
    ∀ item ∈ items, item.Whole := by
  cases h with
  | array h => exact h
  | scalar hdefined harray hhash => cases harray

theorem Whole.entries {entries : Entries} (h : (Value.hash entries).Whole) :
    Entries.Distinct entries ∧ (∀ e ∈ entries, e.1.Whole) ∧ ∀ e ∈ entries, e.2.Whole := by
  cases h with
  | hash hdistinct hkeys hvalues => exact ⟨hdistinct, hkeys, hvalues⟩
  | scalar hdefined harray hhash => cases hhash

end Value

namespace Ty

/-- What checks its value, or goes on with it or with its parts. -/
def CheckNode : Ty → Prop
  | nominal _ _ | constrained _ _ _ | sum _ _ _ | array _ _ | map _ _ _ | safe _ | lax _
  | maybe _ => True
  | _ => False

/-- There is no conversion, default, enum, schema or reference at any depth. -/
abbrev Checks (ty : Ty) : Prop :=
  ty.Everywhere CheckNode

/-- A step that goes on with another type, and gives back what that makes of the value. -/
inductive PassesOn (scope : Scope) : Ty × Value → Ty × Value → Prop
  | constrained {inner : Ty} {rule : Rule} {set : PredicateSet} {v : Value} :
    PassesOn scope (constrained inner rule set, v) (inner, v)
  | converted {inner : Ty} {functions : List Func} {v w : Value}
    (hw : convert functions v = .ok w) : PassesOn scope (converted inner functions, v) (inner, w)
  | enum {inner : Ty} {values : List Value} {v : Value} :
    PassesOn scope (enum inner values, v) (inner, pick values v)
  | safe {inner : Ty} {v : Value} : PassesOn scope (safe inner, v) (inner, v)
  | lax {inner : Ty} {v : Value} : PassesOn scope (lax inner, v) (inner, v)
  | maybe {inner : Ty} {v : Value} (hpresent : v.isAbsent = false) :
    PassesOn scope (maybe inner, v) (inner, v)
  | reference {r : Reference} {ty : Ty} {v : Value} {fuel : Nat}
    (hr : r.resolve scope fuel = .ok (.ok ty)) : PassesOn scope (reference r, v) (ty, v)

/-- Trying a value succeeds, with a value equal to this one. -/
def Yields (scope : Scope) (ty : Ty) (input v : Value) : Prop :=
  ∃ w, (w == v) = true ∧ ∀ o, ty.Attempts scope input o ↔ o = .success w

/-- What holds of a type with a default and of the type without it. -/
structure DefaultsTo (scope : Scope) (ty t : Ty) (d : Value) : Prop where
  /-- Absent input is taken to the default as it was given. -/
  given : ∀ x, x.isAbsent = true →
    (∀ r, t.Coerces scope x r ↔ r = .ok d) ∧ ∀ o, t.Attempts scope x o ↔ o = .success d
  accepted : ty.Accepts scope d true
  /-- Trying the default succeeds too, if the type asks no default of its own. -/
  tried : ty.DefaultFree scope → ∃ v, ty.Yields scope d v
  /-- It gives the value that the layers of the type come to, if nothing alters that further. So the
  default comes back if it is equal to this value, and only then. -/
  followed : ∀ u v, Relation.ReflTransGen (PassesOn scope) (ty, d) (u, v) → u.Preserves scope v →
    ty.Yields scope d v ∧ (ty.Yields scope d d ↔ (v == d) = true)
  /-- Types that only check give back any default. -/
  checked : ty.Checks → d.Whole → ty.Yields scope d d

open Relation

section

variable {scope : Scope} {ty t : Ty} {v w d : Value} {fuel more : Nat}

theorem Checks.preserves (h : ty.Checks) (hv : v.Whole) : ty.Preserves scope v := by
  induction ty generalizing v with
  | nominal p info => exact .nominal
  | constrained inner rule set ih => exact .constrained (ih h.2 hv)
  | sum left right info ihl ihr => exact .sum (ihl h.2.1 hv) fun _ => ihr h.2.2 hv
  | array member info ih =>
    have hitems : ∀ items, v = .array items → ∀ item ∈ items, item.Whole := by
      rintro items rfl
      exact hv.items
    exact .array (fun items h item hitem => (hitems items h item hitem).isUndefined)
      fun items hvalue item hitem => ih h.2 (hitems items hvalue item hitem)
  | map key value info ihk ihv =>
    have hentries : ∀ entries, v = .hash entries → Entries.Distinct entries ∧
        (∀ e ∈ entries, e.1.Whole) ∧ ∀ e ∈ entries, e.2.Whole := by
      rintro entries rfl
      exact hv.entries
    exact .map (fun entries hvalue => (hentries entries hvalue).1)
      (fun entries hvalue e he => ihk h.2.1 ((hentries entries hvalue).2.1 e he))
      fun entries hvalue e he => ihv h.2.2 ((hentries entries hvalue).2.2 e he)
  | safe inner ih => exact .safe (ih h.2 hv)
  | lax inner ih => exact .lax (ih h.2 hv)
  | maybe inner ih =>
    exact .maybe (fun habsent => Value.eq_nil_of_isAbsent habsent hv.isUndefined)
      fun _ => ih h.2 hv
  | reference r => exact h.elim
  | converted _ _ _ | defaulted _ _ _ | enum _ _ _ | schema _ _ => exact h.1.elim

theorem resolve_unique {r : Reference} {found found' : Result Ty}
    (h : r.resolve scope fuel = .ok found) (h' : r.resolve scope more = .ok found') :
    found = found' := by
  have h := Reference.follow_mono (Nat.le_max_left fuel more) h
  have h' := Reference.follow_mono (Nat.le_max_right fuel more) h'
  exact Except.ok.inj (h.symm.trans h')

section

variable {a b : Ty × Value}

theorem PassesOn.attempts (h : PassesOn scope a b) (ha : a.1.Attempts scope a.2 (.success w)) :
    b.1.Attempts scope b.2 (.success w) := by
  cases h with
  | constrained => exact (attempts_constrained_iff.mp ha).1
  | converted hu =>
    obtain ⟨x, hx, hw⟩ := attempts_converted_iff.mp ha
    obtain rfl := Except.ok.inj (hu.symm.trans hx)
    exact hw
  | safe => exact attempts_safe_iff.mp ha
  | enum | lax =>
    obtain ⟨fuel, ha⟩ := ha
    cases fuel with
    | zero => cases ha
    | succ fuel => exact ⟨fuel, ha⟩
  | maybe hpresent =>
    rcases attempts_maybe_iff.mp ha with ⟨habsent, -⟩ | ⟨-, ha⟩
    · cases habsent.symm.trans hpresent
    · exact ha
  | reference hr =>
    obtain ⟨fuel, ha⟩ := ha
    cases fuel with
    | zero => cases ha
    | succ fuel =>
      obtain ⟨found, hfound, ha⟩ := bind_eq_ok.mp ha
      obtain rfl := resolve_unique hfound hr
      exact ⟨fuel, ha⟩

/-- An accepted value is also accepted in a trial, if that is so of what it is passed to. -/
theorem PassesOn.exists_attempt (h : PassesOn scope a b) (ha : a.1.Accepts scope a.2 true)
    (hb : b.1.Accepts scope b.2 true → ∃ w, b.1.Attempts scope b.2 (.success w)) :
    ∃ w, a.1.Attempts scope a.2 (.success w) := by
  obtain ⟨fuel, ha⟩ := ha
  cases fuel with
  | zero => cases ha
  | succ fuel =>
    cases h with
    | @constrained inner rule set _ =>
      have htries : (Ty.constrained inner rule set).Tries := trivial
      exact htries.accepts_true_iff.mp ⟨fuel + 1, ha⟩
    | converted hu =>
      simp only [accepts, hu] at ha
      obtain ⟨w, hw⟩ := hb ⟨fuel, ha⟩
      exact ⟨w, attempts_converted_iff.mpr ⟨_, hu, hw⟩⟩
    | enum | safe | lax =>
      obtain ⟨w, more, hw⟩ := hb ⟨fuel, ha⟩
      exact ⟨w, more + 1, hw⟩
    | maybe hpresent =>
      simp only [accepts, hpresent, Bool.false_eq_true, if_false] at ha
      obtain ⟨w, hw⟩ := hb ⟨fuel, ha⟩
      exact ⟨w, attempts_maybe_iff.mpr (Or.inr ⟨hpresent, hw⟩)⟩
    | @reference r ty _ more hr =>
      obtain ⟨found, hfound, ha⟩ := bind_eq_ok.mp ha
      obtain rfl := resolve_unique hfound hr
      obtain ⟨w, depth, hw⟩ := hb ⟨fuel, ha⟩
      have hr := Reference.follow_mono (Nat.le_max_left more depth) hr
      have hw := attempt_mono (Nat.le_max_right more depth) hw
      exact ⟨w, max more depth + 1, bind_eq_ok.mpr ⟨_, hr, hw⟩⟩

theorem attempts_of_passesOn (h : ReflTransGen (PassesOn scope) a b)
    (ha : a.1.Attempts scope a.2 (.success w)) : b.1.Attempts scope b.2 (.success w) :=
  holds_of_steps (P := fun c => c.1.Attempts scope c.2 (.success w))
    (fun hc step => step.attempts hc) ha h

/-- What is passed on to a type that keeps it comes back. -/
theorem yields_of_passesOn (h : ReflTransGen (PassesOn scope) a b) (hb : b.1.Preserves scope b.2)
    (ha : a.1.Accepts scope a.2 true) : a.1.Yields scope a.2 b.2 := by
  have hsuccess : ∃ w, a.1.Attempts scope a.2 (.success w) := by
    induction h using ReflTransGen.head_induction_on with
    | refl =>
      obtain ⟨fuel, ha⟩ := ha
      obtain ⟨o, ho, hsuccess⟩ := hb.tried true ha
      exact ⟨o.input, fuel, Outcome.eq_success (hsuccess rfl) ▸ ho⟩
    | head step _ ih => exact step.exists_attempt ha ih
  obtain ⟨w, hw⟩ := hsuccess
  obtain ⟨fuel, hpassed⟩ := attempts_of_passesOn h hw
  exact ⟨w, hb.beq_of_attempt hpassed, fun o => hw.iff⟩

end

theorem Yields.iff (h : ty.Yields scope d v) : ty.Yields scope d w ↔ (v == w) = true := by
  obtain ⟨x, hxv, hx⟩ := h
  constructor
  · rintro ⟨y, hyw, hy⟩
    obtain rfl := Outcome.success.inj ((hy _).mp ((hx _).mpr rfl))
    exact BEq.trans (BEq.symm hxv) hyw
  · intro hvw
    exact ⟨x, BEq.trans hxv hvw, hx⟩

/-- A type with a default takes absent input to the default as it is given. The type itself accepts
the default, but gives it back only as far as it converts, exchanges and leaves out nothing. -/
theorem defaultsTo_of_withDefault (ht : ty.withDefault scope fuel d = .ok (.ok t)) :
    DefaultsTo scope ty t d := by
  obtain ⟨haccepted, rfl⟩ := withDefault_eq_ok ht
  have haccepts : ty.Accepts scope d true := ⟨fuel, haccepted⟩
  have hfollowed : ∀ u v, ReflTransGen (PassesOn scope) (ty, d) (u, v) → u.Preserves scope v →
      ty.Yields scope d v := fun u v h hu => yields_of_passesOn h hu haccepts
  refine ⟨fun x hx => ?_, haccepts, fun hfree => ?_, fun u v h hu => ?_, fun hchecks hwhole => ?_⟩
  · have htried : (defaulted ty (.literal d)).Attempts scope x (.success d) :=
      attempts_defaulted_of_absent hx
    exact ⟨fun r => (coerces_of_attempts htried).iff, fun o => htried.iff⟩
  · obtain ⟨o, ho, hsuccess⟩ := (hfree.accepts_iff_attempts d true).mp haccepts
    rw [Outcome.eq_success hsuccess] at ho
    exact ⟨o.input, o.input, BEq.refl _, fun p => ho.iff⟩
  · exact ⟨hfollowed u v h hu, (hfollowed u v h hu).iff⟩
  · exact hfollowed ty d .refl (hchecks.preserves hwhole)

end

/-- Integers, and what can be read as one. -/
def readInteger : Ty :=
  .converted (.nominal .int {}) [conversionFunc "coercible" .int Coercible.integer]

theorem preserves_integers (scope : Scope) :
    (array readInteger {}).Preserves scope (.array [.int 1, .int 2]) := by
  have hmember : ∀ n : Int64, readInteger.Preserves scope (.int n) := fun n =>
    .converted (fun w hw => Except.ok.inj hw ▸ BEq.refl _) fun _ _ => .nominal
  have hitem : ∀ item ∈ [Value.int 1, .int 2], ∃ n, item = .int n := by
    intro item hitem
    rcases List.mem_pair.mp hitem with rfl | rfl
    · exact ⟨1, rfl⟩
    · exact ⟨2, rfl⟩
  refine .array (fun items hitems item h => ?_) fun items hitems item h => ?_
  all_goals
    obtain rfl := Value.array.inj hitems
    obtain ⟨n, rfl⟩ := hitem item h
  · rfl
  · exact hmember n

theorem defaultsTo_integers :
    (array readInteger {}).withDefault (World.scope {}) 3 (.array [.int 1, .int 2]) =
      .ok (.ok (defaulted (array readInteger {}) (.literal (.array [.int 1, .int 2])))) ∧
    (array readInteger {}).Yields (World.scope {}) (.array [.int 1, .int 2])
      (.array [.int 1, .int 2]) := by
  have hdefault : (array readInteger {}).withDefault (World.scope {}) 3 (.array [.int 1, .int 2]) =
      .ok (.ok (defaulted (array readInteger {}) (.literal (.array [.int 1, .int 2])))) := rfl
  obtain ⟨hyields, -⟩ := (defaultsTo_of_withDefault hdefault).followed _ _ .refl
    (preserves_integers (World.scope {}))
  exact ⟨hdefault, hyields⟩

/-- A text is accepted as the default of integers and comes out as it is, but the integers make a
number of it. -/
theorem text_defaultOf_integer :
    readInteger.withDefault (World.scope {}) 2 (.string "21") =
      .ok (.ok (defaulted readInteger (.literal (.string "21")))) ∧
    (defaulted readInteger (.literal (.string "21"))).Attempts (World.scope {}) .undefined
      (.success (.string "21")) ∧
    (∀ o, readInteger.Attempts (World.scope {}) (.string "21") o ↔ o = .success (.int 21)) ∧
    ¬readInteger.Yields (World.scope {}) (.string "21") (.string "21") := by
  have hdigits : Numeral.integer? true "21" = some 21 := by decide +kernel
  have hread : Coercible.integer (.string "21") = .ok (.int 21) := by
    simp only [Coercible.integer, Coercible.integerFrom, hdigits]
  have hconvert : convert [conversionFunc "coercible" .int Coercible.integer] (.string "21") =
      .ok (.int 21) := by
    simp only [convert, List.foldlM_cons, List.foldlM_nil, conversionFunc, hread]
    rfl
  have hadmits : Primitive.int.admits (.int 21) = true := rfl
  have htried : readInteger.Attempts (World.scope {}) (.string "21") (.success (.int 21)) :=
    attempts_converted_iff.mpr ⟨_, hconvert, attempts_nominal_iff.mpr ⟨hadmits, rfl⟩⟩
  have haccepts : readInteger.accepts (World.scope {}) 2 (.string "21") = .ok true := by
    rw [readInteger, accepts, hconvert]
    rfl
  have hdefault : readInteger.withDefault (World.scope {}) 2 (.string "21") =
      .ok (.ok (defaulted readInteger (.literal (.string "21")))) := by
    rw [withDefault, haccepts]
    rfl
  refine ⟨hdefault, ⟨1, rfl⟩, fun o => htried.iff, ?_⟩
  rintro ⟨w, hsame, hw⟩
  obtain rfl := Outcome.success.inj ((hw _).mp htried)
  cases hsame

end Ty

end Conform
