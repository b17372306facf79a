import Conform.Proofs.Inquiry

/-!
What references stand for. Aliases lead from one entry to at most one other, so there is a single
trail to follow. It leaves no entry twice and passes through entries that registered types mention,
of which there are finitely many. So it stops: at an entry that is no alias, or where it closes.
-/

namespace Conform

open Relation

theorem Ty.atCore_error {expected : String} {change : Ty → Option Ty} {ty : Ty} {e : Error}
    (h : ty.atCore expected change = .error e) : ∃ message, e = .invalidArgument message := by
  induction ty with
  | constrained inner _ _ ih | converted inner _ ih | defaulted inner _ ih | enum inner _ ih
  | safe inner ih | lax inner ih | maybe inner ih =>
    rw [atCore] at h
    cases hinner : inner.atCore expected change with
    | error f =>
      rw [hinner] at h
      obtain rfl : f = e := Except.error.inj h
      exact ih hinner
    | ok t =>
      rw [hinner] at h
      cases h
  | _ =>
    simp only [atCore] at h
    split at h
    next => cases h
    next => exact ⟨_, (Except.error.inj h).symm⟩

namespace Registry

/-- What a lookup in a registry fails with: some identifier is not known, or stands for what takes
no such parameters. -/
inductive Refusal : Error → Prop
  | unknown (identifier : String) : Refusal (Registry.unknown identifier)
  | unfit (message : String) : Refusal (.invalidArgument message)

variable {fetch : String → Result Ty} {identifier : String} {e : Error}

theorem Refusal.of_bind {α β : Type} {x : Result α} {f : α → Result β}
    (h : (x >>= f) = .error e) (hx : ∀ e, x = .error e → Refusal e)
    (hf : ∀ a e, f a = .error e → Refusal e) : Refusal e := by
  cases x with
  | error d =>
    obtain rfl : d = e := Except.error.inj h
    exact hx d rfl
  | ok a => exact hf a e h

theorem refusal_of_assemble (hfetch : ∀ name e, fetch name = .error e → Refusal e)
    (h : assemble fetch identifier = .error e) : Refusal e := by
  have hbuilt : ∀ {expected : String} {change : Ty → Option Ty} {ty : Ty} (e : Error),
      ty.atCore expected change = .error e → Refusal e := by
    intro _ _ _ e he
    obtain ⟨message, rfl⟩ := Ty.atCore_error he
    exact .unfit message
  unfold assemble at h
  split at h
  next => exact Except.error.inj h ▸ .unknown identifier
  next base member _ =>
    refine .of_bind h (hfetch base) fun b e h => ?_
    exact .of_bind h (hfetch member) fun m e h => hbuilt e h
  next base key value _ =>
    refine .of_bind h (hfetch base) fun b e h => ?_
    refine .of_bind h (hfetch key) fun k e h => ?_
    exact .of_bind h (hfetch value) fun v e h => hbuilt e h
  next base _ _ _ _ =>
    refine .of_bind h (hfetch base) fun b e h => ?_
    exact Except.error.inj h ▸ .unknown identifier

theorem refusal_of_standing {known? : String → Option Ty} {fuel : Nat}
    (h : standing known? fuel identifier = .error e) : Refusal e := by
  induction fuel generalizing identifier e with
  | zero => exact Except.error.inj h ▸ .unknown identifier
  | succ fuel ih =>
    rw [standing] at h
    split at h
    next => cases h
    next => exact refusal_of_assemble (fun name e he => ih he) h

end Registry

namespace World

/-- A lookup that fails is not taken for a cycle, for its error is of another kind or has another
text. -/
theorem get_ne_cycle (w : World) (number : Nat) (identifier : String) (chain : List Reference)
    (next : Reference) :
    (w.get number identifier).1 ≠ .error (Reference.cycle chain next) := by
  intro h
  unfold get at h
  split at h
  next =>
    have hmessage := Problem.internal.inj (Error.mk.inj (Except.error.inj h)).1
    have hthird := congrArg (fun s : String => s.toList[2]?) hmessage
    simp [String.toList_append] at hthird
  next r _ =>
    rw [Registry.get_fst] at h
    cases Registry.refusal_of_standing h

end World

namespace Scope

variable {scope : Scope} {k k' l : Nat × String} {found : Result Ty}

/-- What is found for an entry that is no alias. -/
def Final (scope : Scope) (k : Nat × String) (found : Result Ty) : Prop :=
  scope.find k.1 k.2 = .ok found ∧ ∀ next, found ≠ .ok (.reference next)

theorem Final.not_alias (h : scope.Final k found) : ¬scope.Alias k k' := by
  rintro ⟨next, hholds, -⟩
  exact h.2 next (Except.ok.inj (h.1.symm.trans hholds))

/-- Aliases lead on from an entry to one from which they lead back to it. -/
def Circles (scope : Scope) (k : Nat × String) : Prop :=
  ∃ k', ReflTransGen scope.Alias k k' ∧ TransGen scope.Alias k' k'

theorem Alias.circle (h : scope.Alias k k') (hk : TransGen scope.Alias k k) :
    TransGen scope.Alias k' k' := by
  obtain ⟨l, first, rest⟩ := TransGen.head'_iff.mp hk
  obtain rfl := h.unique first
  exact .tail' rest h

theorem circle_onward (path : ReflTransGen scope.Alias k k') (hk : TransGen scope.Alias k k) :
    TransGen scope.Alias k' k' := by
  induction path with
  | refl => exact hk
  | tail _ step ih => exact step.circle ih

theorem reached_comparable (path : ReflTransGen scope.Alias k k')
    (other : ReflTransGen scope.Alias k l) :
    ReflTransGen scope.Alias k' l ∨ ReflTransGen scope.Alias l k' :=
  ReflTransGen.total_of_right_unique (fun _ _ _ h h' => h.unique h') path other

/-- Where aliases have come to an end, that is the end of all ways there. -/
theorem Final.reached (h : scope.Final k' found) (path : ReflTransGen scope.Alias k k')
    (other : ReflTransGen scope.Alias k l) : ReflTransGen scope.Alias l k' := by
  rcases reached_comparable path other with hbeyond | hbefore
  · rcases hbeyond.cases_head with rfl | ⟨_, step, -⟩
    · exact .refl
    · exact absurd step h.not_alias
  · exact hbefore

theorem Final.not_circles (h : scope.Final k' found) (path : ReflTransGen scope.Alias k k') :
    ¬scope.Circles k := by
  rintro ⟨l, other, circle⟩
  have hend := circle_onward (h.reached path other) circle
  obtain ⟨_, step, -⟩ := TransGen.head'_iff.mp hend
  exact h.not_alias step

theorem Final.unique {found' : Result Ty} (h : scope.Final k' found)
    (path : ReflTransGen scope.Alias k k') (h' : scope.Final l found')
    (other : ReflTransGen scope.Alias k l) : found = found' := by
  rcases (h.reached path other).cases_head with rfl | ⟨_, step, -⟩
  · exact Except.ok.inj (h.1.symm.trans h'.1)
  · exact absurd step h'.not_alias

end Scope

namespace Reference

variable {scope : Scope} {r next : Reference} {chain : List Reference} {found : Result Ty}

/-- The aliases that have been followed from a reference on, none of them twice, and the reference
that they have led to. -/
inductive Trail (scope : Scope) (r : Reference) : List Reference → Reference → Prop
  | start : Trail scope r [] r
  | onward {chain : List Reference} {current next : Reference}
    (before : Trail scope r chain current)
    (new : ¬chain.any (·.same current) = true)
    (held : scope.Holds current.entry (.reference next)) : Trail scope r (chain ++ [current]) next

/-- A trail whose next step would lead back into it. -/
structure Closes (scope : Scope) (r : Reference) (chain : List Reference) (next : Reference) :
    Prop where
  trail : Trail scope r chain next
  seen : chain.any (·.same next) = true

/-- What is made of the reference that aliases have led to, if no other one is to be followed. -/
inductive Stops (scope : Scope) (chain : List Reference) (next : Reference) : Result Ty → Prop
  | closed (seen : chain.any (·.same next) = true) :
    Stops scope chain next (.error (cycle chain next))
  | final {found : Result Ty} (new : ¬chain.any (·.same next) = true)
    (held : scope.Final next.entry found) : Stops scope chain next found

theorem Trail.reaches (h : Trail scope r chain next) :
    ReflTransGen scope.Alias r.entry next.entry := by
  induction h with
  | start => exact .refl
  | onward _ _ held ih => exact ih.tail ⟨_, held, rfl⟩

/-- Those that have been followed lead to where the trail is now. -/
theorem Trail.leads (h : Trail scope r chain next) :
    ∀ c ∈ chain, TransGen scope.Alias c.entry next.entry := by
  induction h with
  | start => simp
  | onward _ _ held ih =>
    intro c hc
    rcases List.mem_append.mp hc with hc | hc
    · exact (ih c hc).tail ⟨_, held, rfl⟩
    · obtain rfl := List.mem_singleton.mp hc
      exact .single ⟨_, held, rfl⟩

theorem Closes.circles (h : Closes scope r chain next) : scope.Circles r.entry := by
  obtain ⟨c, hc, hsame⟩ := List.any_eq_true.mp h.seen
  have hround := h.trail.leads c hc
  rw [same_iff.mp hsame] at hround
  exact ⟨next.entry, h.trail.reaches, hround⟩

theorem Trail.nodup (h : Trail scope r chain next) : (chain.map entry).Nodup := by
  induction h with
  | start => exact List.nodup_nil
  | @onward chain current _ _ new _ ih =>
    rw [List.map_append, List.map_singleton, ← List.concat_eq_append, List.nodup_concat]
    refine ⟨fun hmem => new ?_, ih⟩
    obtain ⟨c, hc, hentry⟩ := List.mem_map.mp hmem
    exact List.any_eq_true.mpr ⟨c, hc, same_iff.mpr hentry⟩

/-- A trail has room in the entries that there are aliases of, and the one that it starts at. -/
theorem Trail.length_le {targets : List (Nat × String)}
    (hmem : ∀ k k', scope.Alias k k' → k' ∈ targets) (h : Trail scope r chain next) :
    chain.length ≤ targets.length + 1 := by
  have hentries : ∀ k ∈ (chain ++ [next]).map entry, k ∈ r.entry :: targets := by
    induction h with
    | start => simp
    | onward _ _ held ih =>
      intro k hk
      rw [List.map_append, List.mem_append] at hk
      rcases hk with hk | hk
      · exact ih k hk
      · obtain rfl := List.mem_singleton.mp hk
        exact List.mem_cons_of_mem _ (hmem _ _ ⟨_, held, rfl⟩)
  have hsubset : chain.map entry ⊆ r.entry :: targets := by
    intro k hk
    refine hentries k ?_
    rw [List.map_append]
    exact List.mem_append_left _ hk
  simpa using (List.subperm_of_subset h.nodup hsubset).length_le

theorem Trail.stops_or_onward (htotal : scope.Total) (h : Trail scope r chain next) :
    (∃ found, Stops scope chain next found) ∨
      ∃ further, Trail scope r (chain ++ [next]) further := by
  by_cases seen : chain.any (·.same next) = true
  · exact Or.inl ⟨_, .closed seen⟩
  obtain ⟨found, hfound⟩ := htotal next.registry next.identifier
  by_cases halias : ∃ further, found = .ok (.reference further)
  · obtain ⟨further, rfl⟩ := halias
    exact Or.inr ⟨further, h.onward seen hfound⟩
  · exact Or.inl ⟨found, .final seen ⟨hfound, fun further heq => halias ⟨further, heq⟩⟩⟩

/-- Every trail stops: if one did not, it would outgrow the entries that there are. -/
theorem exists_stops (htotal : scope.Total) {targets : List (Nat × String)}
    (hmem : ∀ k k', scope.Alias k k' → k' ∈ targets) (r : Reference) :
    ∃ chain next found, Trail scope r chain next ∧ Stops scope chain next found := by
  by_contra hnone
  have hlong : ∀ n, ∃ chain next, Trail scope r chain next ∧ chain.length = n := by
    intro n
    induction n with
    | zero => exact ⟨[], r, .start, rfl⟩
    | succ n ih =>
      obtain ⟨chain, next, htrail, hlength⟩ := ih
      rcases htrail.stops_or_onward htotal with ⟨found, hstops⟩ | ⟨further, hfurther⟩
      · exact absurd ⟨chain, next, found, htrail, hstops⟩ hnone
      · exact ⟨_, further, hfurther, by rw [List.length_append, hlength, List.length_singleton]⟩
  obtain ⟨chain, next, htrail, hlength⟩ := hlong (targets.length + 2)
  have hle := htrail.length_le hmem
  omega

/-- A trail is where resolving has come to. -/
theorem Trail.resolve_eq (h : Trail scope r chain next) (depth : Nat) :
    r.resolve scope (chain.length + depth) = follow scope depth chain (.reference next) := by
  induction h generalizing depth with
  | start => rw [List.length_nil, Nat.zero_add, resolve]
  | @onward chain current next _ new held ih =>
    have hdepth : (chain ++ [current]).length + depth = chain.length + (depth + 1) := by
      rw [List.length_append, List.length_singleton, Nat.add_assoc, Nat.add_comm 1]
    rw [hdepth, ih, follow_held new held]

theorem Stops.follow_eq (h : Stops scope chain next found) (depth : Nat) :
    follow scope (depth + 1) chain (.reference next) = .ok found := by
  cases h with
  | closed seen => rw [follow, if_pos seen]
  | final new held =>
    cases found with
    | error e =>
      have hmissing : scope.find next.registry next.identifier = .ok (.error e) := held.1
      rw [follow, if_neg new, hmissing]
      rfl
    | ok ty =>
      have hother : ∀ further, ty ≠ .reference further :=
        fun further heq => held.2 further (congrArg Except.ok heq)
      rw [follow_held new held.1, follow_other hother]

theorem Trail.exists_of_follow (htotal : scope.Total) (h : Trail scope r chain next) {depth : Nat}
    (hfollow : follow scope depth chain (.reference next) = .ok found) :
    ∃ chain next, Trail scope r chain next ∧ Stops scope chain next found := by
  induction depth generalizing chain next with
  | zero => simp [follow] at hfollow
  | succ depth ih =>
    rcases h.stops_or_onward htotal with ⟨found', hstops⟩ | ⟨further, hfurther⟩
    · rw [hstops.follow_eq] at hfollow
      obtain rfl := Except.ok.inj hfollow
      exact ⟨chain, next, h, hstops⟩
    · refine ih hfurther ?_
      have hsame := hfurther.resolve_eq depth
      rw [List.length_append, List.length_singleton, Nat.add_assoc, Nat.add_comm 1,
        h.resolve_eq] at hsame
      rw [← hsame, hfollow]

/-- Resolving gives what the trail stops with. -/
theorem resolve_eq_ok_iff (htotal : scope.Total) :
    (∃ depth, r.resolve scope depth = .ok found) ↔
      ∃ chain next, Trail scope r chain next ∧ Stops scope chain next found := by
  constructor
  · rintro ⟨depth, h⟩
    exact Trail.start.exists_of_follow htotal h
  · rintro ⟨chain, next, htrail, hstops⟩
    exact ⟨chain.length + 1, by rw [htrail.resolve_eq, hstops.follow_eq]⟩

end Reference

namespace World

variable {w : World} {r : Reference} {found : Result Ty}

/-- A reference is found to stand for a type, or for none, by looking entries up. -/
def Resolves (w : World) (r : Reference) (found : Result Ty) : Prop :=
  ∃ depth lookups, (answer (fun scope => r.resolve scope depth) lookups [] w).1 = some found

theorem resolves_iff_resolve :
    w.Resolves r found ↔ ∃ depth, r.resolve w.scope depth = .ok found :=
  exists_congr fun depth => w.answered_iff (.follow depth [] (.reference r))

theorem resolves_iff : w.Resolves r found ↔
    ∃ chain next, r.Trail w.scope chain next ∧ Reference.Stops w.scope chain next found :=
  resolves_iff_resolve.trans (Reference.resolve_eq_ok_iff w.total_scope)

theorem exists_resolves (w : World) (r : Reference) : ∃ found, w.Resolves r found := by
  obtain ⟨chain, next, found, h⟩ := Reference.exists_stops w.total_scope
    (fun _ _ step => w.mem_mentioned step.bare.mentions) r
  exact ⟨found, resolves_iff.mpr ⟨chain, next, h⟩⟩

theorem Resolves.unique {found' : Result Ty} (h : w.Resolves r found) (h' : w.Resolves r found') :
    found = found' :=
  outcome_unique Reference.follow_mono (resolves_iff_resolve.mp h) (resolves_iff_resolve.mp h')

/-- What is found for an entry that is no alias, if aliases lead there, is what there is. -/
theorem resolves_of_final {k : Nat × String} (hfinal : w.scope.Final k found)
    (path : ReflTransGen w.scope.Alias r.entry k) : w.Resolves r found := by
  obtain ⟨found', h⟩ := w.exists_resolves r
  obtain ⟨chain, next, htrail, hstops⟩ := resolves_iff.mp h
  cases hstops with
  | closed seen => exact absurd (Reference.Closes.circles ⟨htrail, seen⟩) (hfinal.not_circles path)
  | final _ held => exact hfinal.unique path held htrail.reaches ▸ h

theorem resolves_iff_reached : w.Resolves r found ↔
    (∃ chain next, r.Closes w.scope chain next ∧ found = .error (Reference.cycle chain next)) ∨
      ∃ k, ReflTransGen w.scope.Alias r.entry k ∧ w.scope.Final k found := by
  constructor
  · intro h
    obtain ⟨chain, next, htrail, hstops⟩ := resolves_iff.mp h
    cases hstops with
    | closed seen => exact Or.inl ⟨chain, next, ⟨htrail, seen⟩, rfl⟩
    | final _ held => exact Or.inr ⟨next.entry, htrail.reaches, held⟩
  · rintro (⟨chain, next, ⟨htrail, seen⟩, rfl⟩ | ⟨k, path, hfinal⟩)
    · exact resolves_iff.mpr ⟨chain, next, htrail, .closed seen⟩
    · exact resolves_of_final hfinal path

/-- A cycle is reported exactly where aliases lead into one. -/
theorem exists_resolves_cycle_iff :
    (∃ chain next, w.Resolves r (.error (Reference.cycle chain next))) ↔
      w.scope.Circles r.entry := by
  constructor
  · rintro ⟨chain, next, h⟩
    rcases resolves_iff_reached.mp h with ⟨chain, next, hcloses, -⟩ | ⟨k, -, hfinal⟩
    · exact hcloses.circles
    · exact absurd (Except.ok.inj hfinal.1) (w.get_ne_cycle _ _ _ _)
  · intro hcircles
    obtain ⟨found, h⟩ := w.exists_resolves r
    rcases resolves_iff_reached.mp h with ⟨chain, next, -, rfl⟩ | ⟨k, path, hfinal⟩
    · exact ⟨chain, next, h⟩
    · exact absurd hcircles (hfinal.not_circles path)

/-- Aliases resolve exactly. Resolving a reference ends in one way. It gives a type, which is no
reference, if that is the type of an entry to which aliases lead; it gives the error of a cycle if
they lead into one, with the names of those that have been followed; and it gives any other error if
they lead to an entry whose lookup fails with it. -/
theorem aliases_resolve (w : World) (r : Reference) :
    (∃! found, w.Resolves r found) ∧
    (∀ ty, w.Resolves r (.ok ty) ↔ (∀ next, ty ≠ .reference next) ∧
      ∃ k, ReflTransGen w.scope.Alias r.entry k ∧ w.scope.Holds k ty) ∧
    ((∃ chain next, w.Resolves r (.error (Reference.cycle chain next))) ↔
      ∃ k, ReflTransGen w.scope.Alias r.entry k ∧ TransGen w.scope.Alias k k) ∧
    ∀ e, w.Resolves r (.error e) ↔
      (∃ chain next, r.Closes w.scope chain next ∧ e = Reference.cycle chain next) ∨
        ∃ k, ReflTransGen w.scope.Alias r.entry k ∧ (w.get k.1 k.2).1 = .error e := by
  refine ⟨?_, fun ty => ?_, exists_resolves_cycle_iff, fun e => ?_⟩
  · obtain ⟨found, h⟩ := w.exists_resolves r
    exact ⟨found, h, fun found' h' => h'.unique h⟩
  · rw [resolves_iff_reached]
    constructor
    · rintro (⟨_, _, -, hne⟩ | ⟨k, path, hholds, hother⟩)
      · cases hne
      · exact ⟨fun next heq => hother next (congrArg Except.ok heq), k, path, hholds⟩
    · rintro ⟨hother, k, path, hholds⟩
      exact Or.inr ⟨k, path, hholds, fun next heq => hother next (Except.ok.inj heq)⟩
  · rw [resolves_iff_reached]
    constructor
    · rintro (⟨chain, next, hcloses, heq⟩ | ⟨k, path, hfails, -⟩)
      · exact Or.inl ⟨chain, next, hcloses, Except.error.inj heq⟩
      · exact Or.inr ⟨k, path, Except.ok.inj hfails⟩
    · rintro (⟨chain, next, hcloses, rfl⟩ | ⟨k, path, hfails⟩)
      · exact Or.inl ⟨chain, next, hcloses, rfl⟩
      · exact Or.inr ⟨k, path, congrArg Except.ok hfails, fun next heq => by cases heq⟩

/-- An alias that leads to an alias of itself. -/
def detourWorld : World where
  registries :=
    [{ number := 0
       types := [("a", .reference ⟨0, "b", {}⟩), ("b", .reference ⟨0, "b", {}⟩)] }]
  next := 1

example : detourWorld.Resolves ⟨0, "a", {}⟩
    (.error (Reference.cycle [⟨0, "a", {}⟩, ⟨0, "b", {}⟩] ⟨0, "b", {}⟩)) :=
  ⟨3, 3, rfl⟩

end World

end Conform
