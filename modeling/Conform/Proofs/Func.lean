import Conform.Proofs.Run
import Conform.Func

/-!
Functions and their handles. A handle that has got a function keeps it whatever is registered or
fetched. Only the handles of the table's own making, which are numbered and come as they may, are
taken from the functions that have them.
-/

namespace Conform.FuncTable

section

variable {table : FuncTable} {handle : String} {f : Func}

theorem get_of_find? (h : table.find? f.handle = some f) : table.get f.handle = .ok f := by
  rw [get, h]

/-- A function is found again under its own handle, which is the one that it was found under. -/
theorem find?_of_get (h : table.get handle = .ok f) :
    table.find? f.handle = some f ∧ f.handle = handle := by
  unfold get at h
  split at h
  next g hg =>
    obtain rfl := Except.ok.inj h
    have hhandle : g.handle = handle := by simpa using List.find?_some hg
    exact ⟨by rw [hhandle, hg], hhandle⟩
  next => cases h

theorem contains_iff : table.contains handle = true ↔ ∃ f, table.get handle = .ok f := by
  rw [contains, get]
  cases table.find? handle with
  | none => simp
  | some f => simp

theorem contains_of_find? (h : table.find? f.handle = some f) :
    table.contains f.handle = true := by
  rw [contains, h]
  rfl

theorem exists_mapM_get {handles : List String}
    (h : ∀ handle ∈ handles, table.contains handle = true) :
    ∃ functions, handles.mapM table.get = .ok functions := by
  induction handles with
  | nil => exact ⟨[], rfl⟩
  | cons handle rest ih =>
    obtain ⟨hhandle, hrest⟩ := List.forall_mem_cons.mp h
    obtain ⟨f, hf⟩ := contains_iff.mp hhandle
    obtain ⟨functions, hfunctions⟩ := ih hrest
    refine ⟨f :: functions, ?_⟩
    rw [List.mapM_cons, hf, ok_bind, hfunctions]
    rfl

end

/-- What adds functions to a table. A function with a name is fetched: the first one of a name is
kept. -/
inductive Call where
  | anonymous (call : Value → Result Value)
  | register (f : Func)
  | fetch (f : Func)

/-- The table after a call; one that refuses a function is as before. -/
def after (table : FuncTable) : Call → FuncTable
  | .anonymous call => (table.add call).2
  | .register f => ((table.register f).toOption.map Prod.snd).getD table
  | .fetch f => (table.fetchOrRegister f).2

/-- The table after some calls. -/
def run (table : FuncTable) (calls : List Call) : FuncTable :=
  calls.foldl after table

/-- The handles of a table's own making. -/
def ownHandle (number : Nat) : String :=
  "fn#" ++ toString number

theorem ownHandle_injective {m n : Nat} (h : ownHandle m = ownHandle n) : m = n := by
  have hdigits := congrArg String.toList ((String.append_right_inj _).mp h)
  have hread := congrArg (Nat.ofDigitChars 10 · 0) hdigits
  simpa using hread

/-- The function that takes a handle when the functions without a name are numbered from here on. -/
def taker? (handle : String) : Nat → List Call → Option Func
  | _, [] => none
  | number, .anonymous call :: calls =>
    if ownHandle number = handle then some ⟨handle, call⟩ else taker? handle (number + 1) calls
  | number, .register _ :: calls | number, .fetch _ :: calls => taker? handle number calls

theorem taker?_eq_none {handle : String} {number : Nat}
    (h : ∀ n, number ≤ n → ownHandle n ≠ handle) (calls : List Call) :
    taker? handle number calls = none := by
  induction calls generalizing number with
  | nil => rfl
  | cons call calls ih =>
    cases call with
    | anonymous call =>
      rw [taker?, if_neg (h number (Nat.le_refl _))]
      exact ih fun n hn => h n (by omega)
    | register f => exact ih h
    | fetch f => exact ih h

section

variable {table : FuncTable} {handle : String} {f g : Func}

theorem find?_cons (table : FuncTable) (f : Func) (handle : String) :
    find? { table with functions := f :: table.functions } handle =
      if f.handle = handle then some f else table.find? handle := by
  rw [find?, List.find?_cons]
  split
  next h => rw [if_pos (of_decide_eq_true h)]
  next h => rw [if_neg (of_decide_eq_false h), find?]

/-- Dropping the functions of a handle leaves those of the others. -/
theorem find?_dropped {own : String} (h : own ≠ handle) (number : Nat) :
    find? ⟨table.functions.filter fun g => g.handle ≠ own, number⟩ handle = table.find? handle := by
  rw [find?, List.find?_filter, find?]
  congr 1
  funext g
  by_cases hg : g.handle = handle
  · simp [hg, Ne.symm h]
  · simp [hg]

/-- A function without a name is found under the next handle, before what may be there. -/
theorem find?_anonymous (table : FuncTable) (call : Value → Result Value) (handle : String) :
    (table.after (.anonymous call)).find? handle =
      if ownHandle table.anonymous = handle then some ⟨handle, call⟩ else table.find? handle := by
  refine (find?_cons ⟨_, table.anonymous + 1⟩ ⟨ownHandle table.anonymous, call⟩ handle).trans ?_
  by_cases h : ownHandle table.anonymous = handle
  · subst h
    rw [if_pos rfl, if_pos rfl]
  · rw [if_neg h, if_neg h]
    exact find?_dropped h _

/-- A function that is added under a handle that had none leaves what other handles have. -/
theorem find?_added (h : table.find? handle = some f) (hg : table.find? g.handle = none) :
    find? { table with functions := g :: table.functions } handle = some f := by
  rw [find?_cons, h]
  split
  next heq => cases h.symm.trans (heq ▸ hg)
  next => rfl

theorem register_of_find? (h : table.find? g.handle = some f) :
    table.register g =
      .error (.invalidArgument ("function handle already registered: " ++ g.handle)) := by
  rw [register, contains, h]
  rfl

theorem fetchOrRegister_of_find? (h : table.find? g.handle = some f) :
    table.fetchOrRegister g = (f, table) := by
  rw [fetchOrRegister, h]

/-- Registering and fetching leave all that is there. -/
theorem find?_register (h : table.find? handle = some f) (g : Func) :
    (table.after (.register g)).find? handle = some f := by
  cases hg : table.find? g.handle with
  | some known =>
    rw [after, register_of_find? hg]
    exact h
  | none =>
    have hregister : table.register g =
        .ok (g, { table with functions := g :: table.functions }) := by
      rw [register, contains, hg]
      rfl
    rw [after, hregister]
    exact find?_added h hg

theorem find?_fetch (h : table.find? handle = some f) (g : Func) :
    (table.after (.fetch g)).find? handle = some f := by
  cases hg : table.find? g.handle with
  | some known =>
    rw [after, fetchOrRegister_of_find? hg]
    exact h
  | none =>
    rw [after, fetchOrRegister, hg]
    exact find?_added h hg

theorem anonymous_register (table : FuncTable) (g : Func) :
    (table.after (.register g)).anonymous = table.anonymous := by
  rw [after, register]
  split
  next => rfl
  next => rfl

theorem anonymous_fetch (table : FuncTable) (g : Func) :
    (table.after (.fetch g)).anonymous = table.anonymous := by
  rw [after, fetchOrRegister]
  split
  next => rfl
  next => rfl

/-- After any calls a handle has the function that has taken it meanwhile, if one has. -/
theorem find?_run (h : table.find? handle = some f) (calls : List Call) :
    (table.run calls).find? handle = some ((taker? handle table.anonymous calls).getD f) := by
  induction calls generalizing table f with
  | nil => exact h
  | cons call calls ih =>
    rw [run, List.foldl_cons, ← run]
    cases call with
    | anonymous call =>
      have hnext := find?_anonymous table call handle
      rw [taker?]
      by_cases hown : ownHandle table.anonymous = handle
      · -- The numbers only go up, so the handle is not taken again.
        have hlater : taker? handle (table.after (.anonymous call)).anonymous calls = none := by
          refine taker?_eq_none (fun n (hn : table.anonymous + 1 ≤ n) heq => ?_) calls
          have hsame := ownHandle_injective (heq.trans hown.symm)
          omega
        rw [if_pos hown] at hnext ⊢
        rw [ih hnext, hlater]
        rfl
      · rw [if_neg hown] at hnext ⊢
        exact ih (hnext.trans h)
    | register g => rw [ih (find?_register h g), anonymous_register, taker?]
    | fetch g => rw [ih (find?_fetch h g), anonymous_fetch, taker?]

/-- A handle stands for a function: the function is what getting and fetching give, and registering
is refused. Neither changes the table. -/
structure Means (table : FuncTable) (handle : String) (f : Func) : Prop where
  get : table.get handle = .ok f
  fetch : ∀ g, g.handle = handle → table.fetchOrRegister g = (f, table)
  register : ∀ g, g.handle = handle → table.register g =
    .error (.invalidArgument ("function handle already registered: " ++ handle))
  unchanged : ∀ g, g.handle = handle → table.after (.register g) = table

theorem means_of_find? (h : table.find? handle = some f) : table.Means handle f where
  get := by rw [FuncTable.get, h]
  fetch g hg := by
    subst hg
    exact fetchOrRegister_of_find? h
  register g hg := by
    subst hg
    exact register_of_find? h
  unchanged g hg := by
    subst hg
    rw [after, register_of_find? h]
    rfl

/-- Once a handle has got a function, it stands for that function after any calls, unless it is one
of those that the table still makes itself: a function without a name takes its handle from the one
that has it. -/
theorem handle_kept (table : FuncTable) (handle : String) (f : Func)
    (h : table.get handle = .ok f) (calls : List Call) :
    (table.run calls).Means handle ((taker? handle table.anonymous calls).getD f) ∧
      ((∀ n, table.anonymous ≤ n → ownHandle n ≠ handle) → (table.run calls).Means handle f) := by
  obtain ⟨hfind, rfl⟩ := find?_of_get h
  have hmeans := means_of_find? (find?_run hfind calls)
  refine ⟨hmeans, fun hother => ?_⟩
  rwa [taker?_eq_none hother] at hmeans

end

/-- No other function has the handle of a function. -/
def Spares (table : FuncTable) (f : Func) : Prop :=
  ∀ g, table.get f.handle = .ok g → g = f

section

variable {table : FuncTable} {f g : Func}

theorem spares_empty (number : Nat) (f : Func) : Spares ⟨[], number⟩ f := by
  intro g hg
  cases hg

/-- A function whose handle nothing else has is fetched, and found from then on. -/
theorem Spares.fetch (h : table.Spares f) :
    (table.fetchOrRegister f).1 = f ∧ (table.fetchOrRegister f).2.get f.handle = .ok f := by
  cases hf : table.find? f.handle with
  | none =>
    rw [fetchOrRegister, hf]
    exact ⟨rfl, get_of_find? (by rw [find?_cons, if_pos rfl])⟩
  | some known =>
    have hget : table.get f.handle = .ok known := by rw [get, hf]
    obtain rfl := h known hget
    rw [fetchOrRegister_of_find? hf]
    exact ⟨rfl, hget⟩

/-- Fetching one of some functions with different handles leaves the handles of the others. -/
theorem Spares.after_fetch (hf : table.Spares f) (hg : table.Spares g)
    (h : f.handle = g.handle → f = g) : (table.fetchOrRegister f).2.Spares g := by
  intro k hk
  by_cases hhandle : f.handle = g.handle
  · obtain rfl := h hhandle
    exact Except.ok.inj (hk.symm.trans hf.fetch.2)
  · rw [fetchOrRegister] at hk
    split at hk
    next => exact hg k hk
    next =>
      rw [get, find?_cons, if_neg hhandle, ← get] at hk
      exact hg k hk

end

def double : Func where
  handle := "fn#0"
  call
    | .int n => .ok (.int (n + n))
    | v => .ok v

def increment : Value → Result Value
  | .int n => .ok (.int (n + 1))
  | v => .ok v

theorem handle_kept_double :
    (({} : FuncTable).run [.anonymous increment, .fetch double]).get "fn#0" =
        .ok ⟨"fn#0", increment⟩ ∧
      ((({} : FuncTable).run [.anonymous increment, .fetch double]).run
        [.anonymous double.call, .register double]).Means "fn#0" ⟨"fn#0", increment⟩ :=
  ⟨rfl, (handle_kept _ "fn#0" ⟨"fn#0", increment⟩ rfl [.anonymous double.call, .register double]).1⟩

/-- Whatever number is next, the function that has been given this handle is replaced by the next
one that has no name: what doubled numbers increments them. -/
theorem handle_taken :
    ¬∃ number : Nat, ∀ (handle : String) (f : Func) (calls : List Call),
      ((⟨[], number⟩ : FuncTable).run [.fetch ⟨handle, double.call⟩]).get handle = .ok f →
        ((⟨[], number⟩ : FuncTable).run (.fetch ⟨handle, double.call⟩ :: calls)).get handle =
          .ok f := by
  rintro ⟨number, hkept⟩
  have hfirst := (spares_empty number ⟨ownHandle number, double.call⟩).fetch.2
  have htaken : ((⟨[], number⟩ : FuncTable).run
      [.fetch ⟨ownHandle number, double.call⟩, .anonymous increment]).find? (ownHandle number) =
      some ⟨ownHandle number, increment⟩ := by
    have hnext := find?_anonymous ((⟨[], number⟩ : FuncTable).run
      [.fetch ⟨ownHandle number, double.call⟩]) increment (ownHandle number)
    rwa [run, List.foldl_cons, List.foldl_nil, anonymous_fetch, if_pos rfl] at hnext
  have hsame := hkept _ _ [.anonymous increment] hfirst
  rw [get, htaken] at hsame
  have hcall : increment = double.call := (Func.mk.inj (Except.ok.inj hsame)).2
  have hfour : increment (.int 4) = double.call (.int 4) := by rw [hcall]
  cases hfour

end Conform.FuncTable
