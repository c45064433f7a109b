import Mathlib.Logic.Function.Basic
import TagTemplate.Proofs.Execution.Scope

/-!
Runs that agree.

What a program can see of the scope is its *view*: the value on top of each stack.  Two programs
agree if, from views and contexts in given relations, they end with the same result and with
contexts in the same relation.  Since nodes are balanced, a run that goes on starts from the view
it had before, and agreement passes from the parts of a program to the whole: `Agree.bind` for
sequences, `Interpreter.agree_forLoop` for loops.
-/

namespace TagTemplate

/-! ## Views -/

/-- What the names stand for in a scope. -/
abbrev View := String → Option Value

namespace NamedStacks

theorem lookup_insert (store : NamedStacks) (name : String) (top : Value) (below : List Value) :
    lookup ⟨store.byName.insert name (top :: below)⟩ =
      Function.update store.lookup name (some top) := by
  funext other
  by_cases h : other = name
  · rw [h, Function.update_self, lookup, values_insert, if_pos rfl, List.head?_cons]
  · rw [Function.update_of_ne h, lookup, values_insert, if_neg h, lookup]

theorem lookup_push (store : NamedStacks) (name : String) (value : Value) :
    (store.push name value).lookup = Function.update store.lookup name (some value) :=
  lookup_insert store name value (store.values name)

theorem lookup_of_values {store store' : NamedStacks}
    (h : ∀ name, store'.values name = store.values name) : store'.lookup = store.lookup := by
  funext name
  rw [lookup, h, lookup]

end NamedStacks

theorem Exec.Balanced.lookup_eq {x : Exec Unit} (hx : Balanced x) {m m' : Machine}
    (h : x m = (.ok (), m')) : m'.scope.lookup = m.scope.lookup :=
  NamedStacks.lookup_of_values (hx m m' h)

/-- The views inside a loop: both have the same new value for its counter. -/
def Rebound (counter : String) (R : View → View → Prop) (f g : View) : Prop :=
  ∃ f₀ g₀ value, R f₀ g₀ ∧ f = Function.update f₀ counter (some value) ∧
    g = Function.update g₀ counter (some value)

theorem Rebound.of_push {counter : String} {R : View → View → Prop} {scope scope' : NamedStacks}
    (h : R scope.lookup scope'.lookup) (value : Value) :
    Rebound counter R (scope.push counter value).lookup (scope'.push counter value).lookup :=
  ⟨_, _, value, h, scope.lookup_push counter value, scope'.lookup_push counter value⟩

theorem Rebound.update {counter : String} {R : View → View → Prop} {f g : View}
    (h : Rebound counter R f g) (value : Value) :
    Rebound counter R (Function.update f counter (some value))
      (Function.update g counter (some value)) := by
  obtain ⟨f₀, g₀, old, hR, rfl, rfl⟩ := h
  exact ⟨f₀, g₀, value, hR, Function.update_idem .., Function.update_idem ..⟩

/-! ## Agreement -/

namespace Exec

/-- Ends with the same result, which is no failure outside of `P`, and contexts related by `K`. -/
structure EndAlike (K : Context → Context → Prop) (P : ExecError → Prop)
    (p q : Except ExecError Unit × Machine) : Prop where
  result : p.1 = q.1
  context : K p.2.context q.2.context
  failure : ∀ e, p.1 = .error e → P e

/-- From views related by `R` and contexts related by `K`, both programs end alike. -/
def Agree (R : View → View → Prop) (K : Context → Context → Prop) (P : ExecError → Prop)
    (x y : Exec Unit) : Prop :=
  ∀ m n : Machine, R m.scope.lookup n.scope.lookup → K m.context n.context →
    EndAlike K P (x m) (y n)

variable {R : View → View → Prop} {K : Context → Context → Prop} {P : ExecError → Prop}

theorem EndAlike.ok {m n : Machine} (h : K m.context n.context) :
    EndAlike K P (.ok (), m) (.ok (), n) :=
  ⟨rfl, h, nofun⟩

theorem EndAlike.error {e : ExecError} {m n : Machine} (h : K m.context n.context) (he : P e) :
    EndAlike K P (.error e, m) (.error e, n) :=
  ⟨rfl, h, by rintro _ ⟨⟩; exact he⟩

/-- Programs that end alike go on alike, or fail alike. -/
theorem EndAlike.bind {x x' y y' : Exec Unit} {m n : Machine} (h : EndAlike K P (x m) (x' n))
    (hnext : ∀ m' n', x m = (.ok (), m') → x' n = (.ok (), n') → K m'.context n'.context →
      EndAlike K P (y m') (y' n')) :
    EndAlike K P ((x >>= fun _ => y) m) ((x' >>= fun _ => y') n) := by
  obtain ⟨hresult, hcontext, hfailure⟩ := h
  cases hx : x m with
  | mk result m' =>
      cases hx' : x' n with
      | mk result' n' =>
          rw [hx, hx'] at hresult hcontext
          rw [hx] at hfailure
          obtain rfl : result = result' := hresult
          cases result with
          | error e =>
              rw [bind_of_error hx, bind_of_error hx']
              exact .error hcontext (hfailure e rfl)
          | ok _ =>
              rw [bind_of_ok hx, bind_of_ok hx']
              exact hnext m' n' hx hx' hcontext

theorem agree_pure : Agree R K P (pure ()) (pure ()) :=
  fun _ _ _ hK => .ok hK

theorem Agree.bind {x x' y y' : Exec Unit} (hx : Agree R K P x x') (hy : Agree R K P y y')
    (hbalanced : Balanced x) (hbalanced' : Balanced x') :
    Agree R K P (x >>= fun _ => y) (x' >>= fun _ => y') := by
  intro m n hR hK
  refine (hx m n hR hK).bind fun m' n' hm' hn' hcontext => hy m' n' ?_ hcontext
  rw [hbalanced.lookup_eq hm', hbalanced'.lookup_eq hn']
  exact hR

end Exec

/-! ## Loops -/

section Loop

variable {R : View → View → Prop} {K : Context → Context → Prop} {P : ExecError → Prop}
  {body body' : Exec Unit} (hbalanced : Exec.Balanced body) (hbalanced' : Exec.Balanced body')

include hbalanced hbalanced'

/-- Loops whose counters have the same value go on alike if their bodies agree. -/
theorem LoopControl.iterate_endAlike {control : LoopControl}
    (hbody : Exec.Agree (Rebound control.counter R) K P body body') {exhausted : ExecError}
    (hexhausted : P exhausted) (budget : Nat) {m n : Machine} {top : Value} {x : Number}
    {below below' : List Value} (hm : m.scope.values control.counter = top :: below)
    (hn : n.scope.values control.counter = top :: below') (hx : top.toNumber = .ok x)
    (hR : Rebound control.counter R m.scope.lookup n.scope.lookup)
    (hK : K m.context n.context) :
    Exec.EndAlike K P (control.iterate exhausted body budget m)
      (control.iterate exhausted body' budget n) := by
  induction budget generalizing m n top x with
  | zero =>
      rw [iterate, iterate, Exec.bind_of_ok (isOver_of_values hm hx),
        Exec.bind_of_ok (isOver_of_values hn hx)]
      cases x.order control.stop == control.past with
      | true => exact .ok hK
      | false => exact .error hK hexhausted
  | succ budget ih =>
      rw [iterate, iterate, Exec.bind_of_ok (isOver_of_values hm hx),
        Exec.bind_of_ok (isOver_of_values hn hx)]
      cases x.order control.stop == control.past with
      | true => exact .ok hK
      | false =>
          refine (hbody m n hR hK).bind fun m' n' hm' hn' hK' => ?_
          have htop : m'.scope.values control.counter = top :: below := by
            rw [hbalanced m m' hm', hm]
          have htop' : n'.scope.values control.counter = top :: below' := by
            rw [hbalanced' n n' hn', hn]
          have hadvance := advance_of_values htop hx
          have hadvance' := advance_of_values htop' hx
          split at hadvance
          · rw [if_pos ‹_›] at hadvance'
            rw [Exec.bind_of_ok hadvance, Exec.bind_of_ok hadvance']
            exact .ok hK'
          · rw [if_neg ‹_›] at hadvance'
            rw [Exec.bind_of_ok hadvance, Exec.bind_of_ok hadvance']
            refine ih (NamedStacks.values_insert_self ..) (NamedStacks.values_insert_self ..)
              (Value.toNumber_ofNumber _) ?_ hK'
            rw [NamedStacks.lookup_insert, NamedStacks.lookup_insert, hbalanced.lookup_eq hm',
              hbalanced'.lookup_eq hn']
            exact hR.update _

/-- Loops that are entered alike agree if their bodies do. -/
theorem Interpreter.agree_forLoop {interpreter : Interpreter} {header header' : LoopHeader}
    (hcounter : header'.counter = header.counter)
    (hentry : ∀ m n : Machine, R m.scope.lookup n.scope.lookup → K m.context n.context →
      header.entry m = header'.entry n ∧ ∀ e, header.entry m = .error e → P e)
    (hexhausted : P (interpreter.loopExhausted header.counter))
    (hbody : Exec.Agree (Rebound header.counter R) K P body body') :
    Exec.Agree R K P (interpreter.forLoop header body) (interpreter.forLoop header' body') := by
  intro m n hR hK
  obtain ⟨hsame, hfailure⟩ := hentry m n hR hK
  cases h : header.entry m with
  | error e =>
      obtain ⟨scope, hrun, -⟩ := @forLoop_of_entry_error interpreter header body m e h
      obtain ⟨scope', hrun', -⟩ :=
        @forLoop_of_entry_error interpreter header' body' n e (hsame ▸ h)
      rw [hrun, hrun']
      exact .error hK (hfailure e h)
  | ok entered =>
      obtain ⟨start, control⟩ := entered
      obtain ⟨⟨hcontrol, x, hx⟩, hrun⟩ := @forLoop_of_entry_ok interpreter header body m _ _ h
      obtain ⟨-, hrun'⟩ := @forLoop_of_entry_ok interpreter header' body' n _ _ (hsame ▸ h)
      rw [hrun, hrun', hcounter]
      rw [← hcontrol] at hexhausted hbody ⊢
      have htop := m.scope.values_push_self control.counter start
      have htop' := n.scope.values_push_self control.counter start
      have hiterate := LoopControl.iterate_endAlike hbalanced hbalanced' hbody hexhausted
        interpreter.loopBudget (m := ⟨m.scope.push control.counter start, m.context⟩)
        (n := ⟨n.scope.push control.counter start, n.context⟩) htop htop' hx (.of_push hR start) hK
      refine hiterate.bind fun m' n' hm' hn' hK' => ?_
      -- the entry of the counter is still there to be popped
      obtain ⟨⟨last, hlast⟩, -⟩ := LoopControl.iterate_values hbalanced htop hx hm'
      obtain ⟨⟨last', hlast'⟩, -⟩ := LoopControl.iterate_values hbalanced' htop' hx hn'
      rw [Exec.popVariable_of_values hlast, Exec.popVariable_of_values hlast']
      exact .ok hK'

end Loop

/-! ## Echoes and texts -/

theorem Exec.write_eq_evaluate (text : String) :
    write text = evaluate fun _ => Eval.write text := by
  funext m
  obtain ⟨scope, context⟩ := m
  simp only [write, evaluate, Eval.write]
  split <;> simp_all

theorem Exec.evaluate_apply (evaluation : NamedStacks → Eval Unit) (m : Machine) :
    evaluate evaluation m = ((evaluation m.scope ⟨[], m.context⟩).1,
      ⟨m.scope, (evaluation m.scope ⟨[], m.context⟩).2.context⟩) := rfl

/-- Every failure is in `P`. -/
def Eval.Raises {α : Type} (P : ExecError → Prop) (x : Eval α) : Prop :=
  ∀ evaluation e, (x evaluation).1 = .error e → P e

theorem Eval.raises_write {P : ExecError → Prop} {text : String} (he : ∀ e, P (.output e)) :
    Raises P (write text) := by
  rintro ⟨operands, context⟩ e h
  simp only [write] at h
  split at h <;> cases h
  exact he _

/-- An evaluation that makes the same of both scopes agrees with itself. -/
theorem Exec.agree_evaluate {R : View → View → Prop} {P : ExecError → Prop}
    {evaluation evaluation' : NamedStacks → Eval Unit}
    (h : ∀ scope scope', R scope.lookup scope'.lookup → evaluation scope = evaluation' scope')
    (hraises : ∀ scope, Eval.Raises P (evaluation scope)) :
    Agree R Eq P (evaluate evaluation) (evaluate evaluation') := by
  intro m n hR hcontext
  rw [evaluate_apply, evaluate_apply, ← h m.scope n.scope hR, ← hcontext]
  exact ⟨rfl, rfl, hraises m.scope ⟨[], m.context⟩⟩

theorem Exec.agree_write {R : View → View → Prop} {P : ExecError → Prop}
    (he : ∀ e, P (.output e)) (text : String) : Agree R Eq P (write text) (write text) := by
  rw [write_eq_evaluate]
  exact agree_evaluate (fun _ _ _ => rfl) fun _ => Eval.raises_write he

theorem resolve_of_lookup {scope scope' : NamedStacks} {name : String}
    (h : scope.lookup name = scope'.lookup name) (context : Context) :
    resolve scope context name = resolve scope' context name := by
  rw [resolve, resolve, h]

theorem Eval.elements_of_lookup (functions : FunctionTable) {scope scope' : NamedStacks}
    (h : scope.lookup = scope'.lookup) (es : List Element) :
    elements functions scope es = elements functions scope' es := by
  have hresolve : ∀ name, resolveVariable scope name = resolveVariable scope' name := by
    intro name
    unfold resolveVariable
    simp only [resolve_of_lookup (congrFun h name)]
  induction es with
  | nil => rfl
  | cons e es ih =>
      rw [elements, elements, ih]
      cases e with
      | var name => simp only [element, hresolve]
      | _ => rfl

/-! ## Bounds -/

/-- Elements that stand for a value by themselves or by their name. -/
def Element.isValue : Element → Bool
  | .function _ | .operator _ => false
  | _ => true

theorem resolve_eq_error {scope : NamedStacks} {context : Context} {name : String} {e : ExecError}
    (h : resolve scope context name = .error e) :
    e = .unknownVariable name ∧ scope.lookup name = none ∧ context.parameter? name = none := by
  unfold resolve at h
  split at h
  · cases h
  split at h
  · cases h
  · cases h
    exact ⟨rfl, ‹_›, ‹_›⟩

theorem Exec.bound_var (name : String) (m : Machine) :
    (bound (.var name) m).1 = resolve m.scope m.context name := by
  have hget : (get : Exec Machine) m = (.ok m, m) := rfl
  simp only [bound]
  rw [bind_of_ok hget]
  cases resolve m.scope m.context name <;> rfl

theorem Exec.bound_of_lookup {m n : Machine} (hlookup : m.scope.lookup = n.scope.lookup)
    (hcontext : m.context = n.context) (element : Element) :
    (bound element m).1 = (bound element n).1 := by
  cases element with
  | var name =>
      rw [bound_var, bound_var, hcontext, resolve_of_lookup (congrFun hlookup name)]
  | _ => rfl

theorem Exec.bound_eq_error {element : Element} {m : Machine} {e : ExecError}
    (h : (bound element m).1 = .error e) :
    (∃ name, element = .var name ∧ resolve m.scope m.context name = .error e) ∨
      (element.isValue = false ∧ e = .invalidLoopElement element) := by
  cases element with
  | var name =>
      rw [bound_var] at h
      exact .inl ⟨name, rfl, h⟩
  | function name =>
      cases h
      exact .inr ⟨rfl, rfl⟩
  | operator op =>
      cases h
      exact .inr ⟨rfl, rfl⟩
  | _ => cases h

namespace LoopHeader

private theorem bind_eq_error {α β : Type} {x : Except ExecError α} {k : α → Except ExecError β}
    {e : ExecError} (h : x >>= k = .error e) : x = .error e ∨ ∃ a, k a = .error e := by
  cases x with
  | error e' =>
      cases h
      exact .inl rfl
  | ok a => exact .inr ⟨a, h⟩

theorem entry_congr {header header' : LoopHeader} {m n : Machine}
    (hcounter : header.counter = header'.counter)
    (hstart : (Exec.bound header.start m).1 = (Exec.bound header'.start n).1)
    (hstop : (Exec.bound header.stop m).1 = (Exec.bound header'.stop n).1)
    (hstep : (Exec.stepBound header.step m).1 = (Exec.stepBound header'.step n).1) :
    header.entry m = header'.entry n := by
  rw [entry, entry, hcounter, hstart, hstop, hstep]

theorem entry_of_lookup (header : LoopHeader) {m n : Machine}
    (hlookup : m.scope.lookup = n.scope.lookup) (hcontext : m.context = n.context) :
    header.entry m = header.entry n := by
  have hbound := Exec.bound_of_lookup hlookup hcontext
  refine entry_congr rfl (hbound _) (hbound _) ?_
  cases header.step with
  | none => rfl
  | some step => exact hbound step

theorem entry_eq_error {header : LoopHeader} {m : Machine} {e : ExecError}
    (h : header.entry m = .error e) :
    (∃ reason, e = .value reason) ∨
      ∃ element ∈ header.bounds, (Exec.bound element m).1 = .error e := by
  have hnumber : ∀ {value : Value}, value.toNumber.mapError .value = .error e →
      ∃ reason, e = .value reason := by
    intro value hvalue
    cases hresult : value.toNumber with
    | error reason =>
        rw [hresult] at hvalue
        cases hvalue
        exact ⟨reason, rfl⟩
    | ok x =>
        rw [hresult] at hvalue
        cases hvalue
  unfold entry at h
  rcases bind_eq_error h with hstart | ⟨start, h⟩
  · exact .inr ⟨header.start, by simp [bounds], hstart⟩
  rcases bind_eq_error h with hstop | ⟨stop, h⟩
  · exact .inr ⟨header.stop, by simp [bounds], hstop⟩
  rcases bind_eq_error h with hstep | ⟨step, h⟩
  · cases hheader : header.step with
    | none =>
        rw [hheader] at hstep
        cases hstep
    | some step =>
        rw [hheader] at hstep
        exact .inr ⟨step, by simp [bounds, hheader], hstep⟩
  rcases bind_eq_error h with hfails | ⟨_, h⟩
  · exact .inl (hnumber hfails)
  rcases bind_eq_error h with hfails | ⟨_, h⟩
  · exact .inl (hnumber hfails)
  rcases bind_eq_error h with hfails | ⟨_, h⟩
  · exact .inl (hnumber hfails)
  · cases h

theorem entry_error_ne_stack {header : LoopHeader} {m : Machine} {e : ExecError}
    (h : header.entry m = .error e) (reason : StackError) : e ≠ .stack reason := by
  rcases entry_eq_error h with ⟨_, rfl⟩ | ⟨element, -, helement⟩
  · nofun
  rcases Exec.bound_eq_error helement with ⟨name, -, hname⟩ | ⟨-, rfl⟩
  · rw [(resolve_eq_error hname).1]
    nofun
  · nofun

end LoopHeader

/-! ## Nodes -/

theorem Interpreter.loopExhausted_ne_stack (interpreter : Interpreter) (counter : String)
    (reason : StackError) : interpreter.loopExhausted counter ≠ .stack reason := by
  unfold loopExhausted
  split <;> nofun

/-- Runs see of their scope only the value on top of each stack. -/
theorem Interpreter.agree_runNodes {interpreter : Interpreter} {P : ExecError → Prop}
    (hechoes : ∀ elements scope, Eval.Raises P (Eval.echo interpreter.functions elements scope))
    (hothers : ∀ e, (∀ reason, e ≠ .stack reason) → P e) (nodes : List Node) :
    Exec.Agree Eq Eq P (interpreter.runNodes nodes) (interpreter.runNodes nodes) := by
  induction nodes using Node.listInduction with
  | nil =>
      rw [runNodes]
      exact Exec.agree_pure
  | text content rest ih =>
      have htext : Exec.Agree Eq Eq P (Exec.write content) (Exec.write content) :=
        Exec.agree_write (fun _ => hothers _ (by simp)) content
      rw [runNodes, runNode]
      exact htext.bind ih (Exec.balanced_write content) (Exec.balanced_write content)
  | echo elements rest ih =>
      have hecho : Exec.Agree Eq Eq P (Exec.echo interpreter.functions elements)
          (Exec.echo interpreter.functions elements) := by
        refine Exec.agree_evaluate (fun scope scope' h => ?_) (hechoes elements)
        rw [Eval.echo, Eval.echo, Eval.elements_of_lookup interpreter.functions h]
      rw [runNodes, runNode]
      exact hecho.bind ih (Exec.balanced_evaluate _) (Exec.balanced_evaluate _)
  | forLoop header body rest ihBody ihRest =>
      have hbalanced := interpreter.balanced_runNodes body
      have hbody : Exec.Agree (Rebound header.counter Eq) Eq P (interpreter.runNodes body)
          (interpreter.runNodes body) := by
        rintro m n ⟨f, _, value, rfl, hm, hn⟩ hK
        exact ihBody m n (hm.trans hn.symm) hK
      have hloop : Exec.Agree Eq Eq P (interpreter.forLoop header (interpreter.runNodes body))
          (interpreter.forLoop header (interpreter.runNodes body)) := by
        refine agree_forLoop hbalanced hbalanced rfl (fun m n hview hcontext => ?_) ?_ hbody
        · exact ⟨header.entry_of_lookup hview hcontext, fun e he =>
            hothers e (LoopHeader.entry_error_ne_stack he)⟩
        · exact hothers _ (interpreter.loopExhausted_ne_stack header.counter)
      rw [runNodes, runNode]
      exact hloop.bind ihRest (balanced_forLoop interpreter header hbalanced)
        (balanced_forLoop interpreter header hbalanced)

end TagTemplate
