import TagTemplate.Proofs.Execution.Agreement
import TagTemplate.Proofs.StandardFunction

/-!
Sound documents do not go wrong.

A document is sound if its variables are bound or given, its functions are standard ones, every
echo has the operands that its elements need and leaves one, and no bound of a loop is a function
or an operator.  A run of a sound document can only fail for reasons that depend on values, on the
limit of loops or on the sink.
-/

namespace TagTemplate

/-! ## Sound documents -/

/-- None for a function that is not a standard one. -/
def Element.effect? : Element → Option Effect
  | .function name => (StandardFunction.ofName? name).map StandardFunction.effect
  | .operator _ => some ⟨2, 1⟩
  | _ => some ⟨0, 1⟩

/-- How many operands `count` operands become, or none once an element would be short of them. -/
def operandsAfter? (count : Nat) : List Element → Option Nat
  | [] => some count
  | e :: rest =>
      match e.effect? with
      | some effect =>
          if effect.needs ≤ count then operandsAfter? (count - effect.needs + effect.leaves) rest
          else none
      | none => none

def Element.isKnown (known : String → Bool) : Element → Bool
  | .var name => known name
  | .function name => FunctionTable.standard.contains name
  | _ => true

mutual

def Node.isSound (known : String → Bool) : Node → Bool
  | .text _ => true
  | .echo elements => elements.all (Element.isKnown known) && operandsAfter? 0 elements == some 1
  | .forLoop header body =>
      header.bounds.all (fun e => e.isKnown known && e.isValue) &&
        Node.areSound (fun name => name == header.counter || known name) body

/-- The counter of a loop is known in its body, and not in its header. -/
def Node.areSound (known : String → Bool) : List Node → Bool
  | [] => true
  | node :: rest => node.isSound known && Node.areSound known rest

end

def Document.isSound (document : Document) (context : Context) : Bool :=
  Node.areSound (fun name => (context.parameter? name).isSome) document.children

/-- Failures of sound documents; without a limit, a loop that does not end counts as one. -/
def ExecError.IsDynamic (limit : UInt64) : ExecError → Prop
  | .value _ => True
  | .function name _ => name = StandardFunction.decfmt.name
  | .loopLimit _ bound => bound = limit ∧ limit ≠ 0
  | .endlessLoop _ => limit = 0
  | .output _ => True
  | _ => False

/-! ## Known names -/

/-- Known names stand for a value in the view or are request parameters. -/
def Covers (known : String → Bool) (parameters : NameMap String) (f : View) : Prop :=
  ∀ name, known name = true → (f name).isSome = true ∨ (parameters.find? name).isSome = true

theorem Covers.resolve_eq_ok {known : String → Bool} {scope : NamedStacks} {context : Context}
    (h : Covers known context.parameters scope.lookup) {name : String}
    (hname : known name = true) : ∃ value, resolve scope context name = .ok value := by
  cases hresolve : resolve scope context name with
  | ok value => exact ⟨value, rfl⟩
  | error e =>
      obtain ⟨-, hlookup, hparameter⟩ := resolve_eq_error hresolve
      have hfound := h name hname
      rw [hlookup, show context.parameters.find? name = none from hparameter] at hfound
      simp at hfound

theorem Covers.update {known : String → Bool} {parameters : NameMap String} {f : View}
    (h : Covers known parameters f) (counter : String) (value : Value) :
    Covers (fun name => name == counter || known name) parameters
      (Function.update f counter (some value)) := by
  intro name hname
  by_cases hcounter : name = counter
  · rw [hcounter, Function.update_self]
    exact .inl rfl
  · rw [Function.update_of_ne hcounter]
    refine h name ?_
    simpa [hcounter] using hname

/-! ## Echoes -/

namespace Eval

variable {known : String → Bool} {scope : NamedStacks}

theorem element_var_apply (functions : FunctionTable) (scope : NamedStacks) (name : String)
    (before : Evaluation) :
    element functions scope (.var name) before =
      match resolve scope before.context name with
      | .ok value => (.ok (), ⟨value :: before.operands, before.context⟩)
      | .error e => (.error e, before) := by
  have hget : (get : Eval Evaluation) before = (.ok before, before) := rfl
  have hresolve : resolveVariable scope name before =
      (resolve scope before.context name, before) := by
    unfold resolveVariable
    rw [Exec.bind_of_ok hget]
    cases resolve scope before.context name <;> rfl
  cases hname : resolve scope before.context name with
  | ok value =>
      rw [hname] at hresolve
      exact Exec.bind_of_ok hresolve
  | error e =>
      rw [hname] at hresolve
      exact Exec.bind_of_error hresolve

theorem call_standard_outcome {name : String} {effect : Effect}
    (hknown : FunctionTable.standard.contains name = true)
    (heffect : (StandardFunction.ofName? name).map StandardFunction.effect = some effect)
    (before : Evaluation) :
    Outcome effect StandardFunction.Failure before (call .standard name before) := by
  obtain ⟨builtin, hbuiltin⟩ := Option.isSome_iff_exists.mp hknown
  obtain ⟨f, rfl, rfl⟩ := FunctionTable.exists_of_find?_standard hbuiltin
  rw [f.ofName?_name] at heffect
  cases heffect
  rw [call, show FunctionTable.standard.find? f.name = some f.run from hbuiltin]
  exact f.run_outcome before

theorem element_outcome {before : Evaluation}
    (hcovers : Covers known before.context.parameters scope.lookup) {e : Element}
    (hknown : e.isKnown known = true) {effect : Effect} (heffect : e.effect? = some effect) :
    Outcome effect StandardFunction.Failure before (element .standard scope e before) := by
  cases e with
  | var name =>
      cases heffect
      obtain ⟨value, hvalue⟩ := hcovers.resolve_eq_ok hknown
      rw [element_var_apply, hvalue]
      exact .success (Nat.zero_le _) rfl rfl
  | function name => exact call_standard_outcome hknown heffect before
  | operator op =>
      cases heffect
      exact applyOperator_outcome op before
  | _ =>
      cases heffect
      exact .success (Nat.zero_le _) rfl rfl

/-- What follows a step has all operands that the step leaves. -/
theorem Outcome.bind {P : ExecError → Prop} {effect : Effect} {count : Nat} {x y : Eval Unit}
    {before : Evaluation} (henough : effect.needs ≤ before.operands.length)
    (hx : Outcome effect P before (x before))
    (hy : ∀ after, after.operands.length = before.operands.length - effect.needs + effect.leaves →
      after.context.parameters = before.context.parameters →
      Outcome ⟨after.operands.length, count⟩ P after (y after)) :
    Outcome ⟨before.operands.length, count⟩ P before ((x >>= fun _ => y) before) := by
  cases hrun : x before with
  | mk result after =>
      rw [hrun] at hx
      cases hx with
      | failure he hparameters =>
          rw [Exec.bind_of_error hrun]
          exact .failure he hparameters
      | underflow hshort => omega
      | success _ hafter hparameters =>
          rw [Exec.bind_of_ok hrun]
          have hrest := hy after (by omega) hparameters
          generalize y after = last at hrest
          cases hrest with
          | failure he hlast => exact .failure he (hlast.trans hparameters)
          | underflow hshort => exact absurd hshort (lt_irrefl _)
          | success _ hlast hparameters' =>
              exact .success le_rfl (by simp only at hlast ⊢; omega)
                (hparameters'.trans hparameters)

/-- The operands of an echo are counted before it runs, if each element has its effect. -/
theorem elements_outcome_of_element {P : ExecError → Prop} {parameters : NameMap String}
    {es : List Element}
    (helement : ∀ e ∈ es, ∀ effect, e.effect? = some effect → ∀ before : Evaluation,
      before.context.parameters = parameters →
        Outcome effect P before (element .standard scope e before))
    {before : Evaluation} (hparameters : before.context.parameters = parameters) {count : Nat}
    (hcount : operandsAfter? before.operands.length es = some count) :
    Outcome ⟨before.operands.length, count⟩ P before (elements .standard scope es before) := by
  induction es generalizing before with
  | nil =>
      cases hcount
      exact .success le_rfl rfl rfl
  | cons e es ih =>
      rw [List.forall_mem_cons] at helement
      cases heffect : e.effect? with
      | none => simp [operandsAfter?, heffect] at hcount
      | some effect =>
          simp only [operandsAfter?, heffect, Option.ite_none_right_eq_some] at hcount
          obtain ⟨henough, hcount⟩ := hcount
          refine Outcome.bind henough (helement.1 effect heffect before hparameters) ?_
          intro after hafter hkept
          rw [← hafter] at hcount
          exact ih helement.2 (hkept.trans hparameters) hcount

theorem elements_outcome {before : Evaluation}
    (hcovers : Covers known before.context.parameters scope.lookup) {es : List Element}
    (hknown : ∀ e ∈ es, e.isKnown known = true) {count : Nat}
    (hcount : operandsAfter? before.operands.length es = some count) :
    Outcome ⟨before.operands.length, count⟩ StandardFunction.Failure before
      (elements .standard scope es before) := by
  refine elements_outcome_of_element ?_ rfl hcount
  intro e he effect heffect between hparameters
  exact element_outcome (hparameters ▸ hcovers) (hknown e he) heffect

theorem Outcome.mono {P Q : ExecError → Prop} {effect : Effect} {before : Evaluation}
    {last : Except ExecError Unit × Evaluation} (hPQ : ∀ e, P e → Q e)
    (h : Outcome effect P before last) : Outcome effect Q before last := by
  cases h with
  | success henough hcount hparameters => exact .success henough hcount hparameters
  | failure he hparameters => exact .failure (hPQ _ he) hparameters
  | underflow hshort hparameters => exact .underflow hshort hparameters

theorem write_outcome (text : String) {limit : UInt64} (before : Evaluation) :
    Outcome ⟨before.operands.length, before.operands.length⟩ (ExecError.IsDynamic limit) before
      (write text before) := by
  obtain ⟨operands, context⟩ := before
  have hparameters : (context.write text).2.parameters = context.parameters := rfl
  cases hwrite : context.write text with
  | mk result after =>
      rw [hwrite] at hparameters
      simp only [write, hwrite]
      cases result with
      | ok _ => exact .success le_rfl rfl hparameters
      | error e => exact .failure trivial hparameters

theorem writeResult_outcome {limit : UInt64} {before : Evaluation}
    (h : before.operands.length = 1) :
    Outcome ⟨before.operands.length, 1⟩ (ExecError.IsDynamic limit) before
      (writeResult before) := by
  obtain ⟨operands, context⟩ := before
  obtain ⟨result, rfl⟩ := List.length_eq_one_iff.mp h
  exact write_outcome result.text ⟨[result], context⟩

theorem isDynamic_of_failure {limit : UInt64} {e : ExecError} (h : StandardFunction.Failure e) :
    e.IsDynamic limit := by
  rcases h with ⟨reason, rfl⟩ | ⟨reason, rfl⟩
  · trivial
  · rfl

theorem echo_outcome {limit : UInt64} {context : Context}
    (hcovers : Covers known context.parameters scope.lookup) {es : List Element}
    (hsound : (Node.echo es).isSound known = true) :
    Outcome ⟨0, 1⟩ (ExecError.IsDynamic limit) ⟨[], context⟩
      (echo .standard es scope ⟨[], context⟩) := by
  simp only [Node.isSound, Bool.and_eq_true, List.all_eq_true, beq_iff_eq] at hsound
  have helements := @elements_outcome known scope ⟨[], context⟩ hcovers es hsound.1 1 hsound.2
  refine Outcome.bind le_rfl (helements.mono fun _ => isDynamic_of_failure) ?_
  intro after hafter _
  exact writeResult_outcome hafter

end Eval

/-! ## Nodes -/

namespace Interpreter

/-- The same view, which covers the known names. -/
def SeeKnown (known : String → Bool) (parameters : NameMap String) (f g : View) : Prop :=
  f = g ∧ Covers known parameters f

def GiveParameters (parameters : NameMap String) (context context' : Context) : Prop :=
  context = context' ∧ context.parameters = parameters

variable {limit : UInt64} {parameters : NameMap String}

theorem agree_evaluate_of_outcome {R : View → View → Prop} {count : Nat}
    {evaluation : NamedStacks → Eval Unit}
    (hview : ∀ scope scope' : NamedStacks, R scope.lookup scope'.lookup →
      evaluation scope = evaluation scope')
    (houtcome : ∀ (scope scope' : NamedStacks) (context : Context),
      R scope.lookup scope'.lookup → context.parameters = parameters →
        Eval.Outcome ⟨0, count⟩ (ExecError.IsDynamic limit) ⟨[], context⟩
          (evaluation scope ⟨[], context⟩)) :
    Exec.Agree R (GiveParameters parameters) (ExecError.IsDynamic limit)
      (Exec.evaluate evaluation) (Exec.evaluate evaluation) := by
  rintro m n hR ⟨hcontext, hparameters⟩
  have h := houtcome m.scope n.scope m.context hR hparameters
  rw [Exec.evaluate_apply, Exec.evaluate_apply, ← hview m.scope n.scope hR, ← hcontext]
  generalize evaluation m.scope ⟨[], m.context⟩ = last at h
  cases h with
  | success _ _ hkept => exact .ok ⟨rfl, hkept.trans hparameters⟩
  | failure he hkept => exact .error ⟨rfl, hkept.trans hparameters⟩ he
  | underflow hshort => exact absurd hshort (Nat.not_lt_zero _)

theorem loopExhausted_isDynamic (functions : FunctionTable) (counter : String) :
    (loopExhausted ⟨functions, limit⟩ counter).IsDynamic limit := by
  unfold loopExhausted
  split
  · assumption
  · exact ⟨rfl, ‹_›⟩

theorem entry_error_isDynamic {known : String → Bool} {header : LoopHeader}
    (hbounds : ∀ e ∈ header.bounds, e.isKnown known = true ∧ e.isValue = true) {m : Machine}
    (hcovers : Covers known m.context.parameters m.scope.lookup) {e : ExecError}
    (h : header.entry m = .error e) : e.IsDynamic limit := by
  rcases LoopHeader.entry_eq_error h with ⟨reason, rfl⟩ | ⟨element, hmem, helement⟩
  · trivial
  obtain ⟨hknown, hvalue⟩ := hbounds element hmem
  rcases Exec.bound_eq_error helement with ⟨name, rfl, hname⟩ | ⟨hnot, -⟩
  · obtain ⟨value, hresolve⟩ := hcovers.resolve_eq_ok hknown
    rw [hresolve] at hname
    cases hname
  · rw [hvalue] at hnot
    cases hnot

theorem agree_runNodes_of_areSound {known : String → Bool} {nodes : List Node}
    (hsound : Node.areSound known nodes = true) :
    Exec.Agree (SeeKnown known parameters) (GiveParameters parameters)
      (ExecError.IsDynamic limit) (runNodes ⟨.standard, limit⟩ nodes)
      (runNodes ⟨.standard, limit⟩ nodes) := by
  induction nodes using Node.listInduction generalizing known with
  | nil =>
      rw [runNodes]
      exact Exec.agree_pure
  | text content rest ih =>
      rw [Node.areSound, Bool.and_eq_true] at hsound
      rw [runNodes, runNode]
      refine Exec.Agree.bind ?_ (ih hsound.2) (Exec.balanced_write content)
        (Exec.balanced_write content)
      rw [Exec.write_eq_evaluate]
      exact agree_evaluate_of_outcome (fun _ _ _ => rfl) fun _ _ context _ _ =>
        Eval.write_outcome content ⟨[], context⟩
  | echo elements rest ih =>
      rw [Node.areSound, Bool.and_eq_true] at hsound
      have hview : ∀ scope scope' : NamedStacks,
          SeeKnown known parameters scope.lookup scope'.lookup →
            Eval.echo .standard elements scope = Eval.echo .standard elements scope' := by
        rintro scope scope' ⟨hview, -⟩
        rw [Eval.echo, Eval.echo, Eval.elements_of_lookup _ hview]
      rw [runNodes, runNode]
      refine Exec.Agree.bind ?_ (ih hsound.2) (Exec.balanced_evaluate _) (Exec.balanced_evaluate _)
      exact agree_evaluate_of_outcome hview fun scope scope' context hcovers hparameters =>
        Eval.echo_outcome (hparameters ▸ hcovers.2) hsound.1
  | forLoop header body rest ihBody ihRest =>
      rw [Node.areSound, Node.isSound, Bool.and_eq_true, Bool.and_eq_true] at hsound
      obtain ⟨⟨hbounds, hbodySound⟩, hrestSound⟩ := hsound
      simp only [List.all_eq_true, Bool.and_eq_true] at hbounds
      have hbalanced := balanced_runNodes ⟨.standard, limit⟩ body
      have hbody : Exec.Agree (Rebound header.counter (SeeKnown known parameters))
          (GiveParameters parameters) (ExecError.IsDynamic limit)
          (runNodes ⟨.standard, limit⟩ body) (runNodes ⟨.standard, limit⟩ body) := by
        rintro m n ⟨f, _, value, ⟨rfl, hcovers⟩, hm, hn⟩ hcontext
        refine ihBody hbodySound m n ⟨hm.trans hn.symm, ?_⟩ hcontext
        rw [hm]
        exact hcovers.update header.counter value
      rw [runNodes, runNode]
      refine Exec.Agree.bind ?_ (ihRest hrestSound) (balanced_forLoop _ header hbalanced)
        (balanced_forLoop _ header hbalanced)
      refine agree_forLoop hbalanced hbalanced rfl ?_ (loopExhausted_isDynamic _ _) hbody
      rintro m n ⟨hview, hcovers⟩ ⟨hcontext, hparameters⟩
      refine ⟨header.entry_of_lookup hview hcontext, fun e he => ?_⟩
      exact entry_error_isDynamic hbounds (hparameters ▸ hcovers) he

/-- The only failures of a sound document are dynamic ones. -/
theorem isDynamic_of_execute_error (limit : UInt64) (document : Document) (context : Context)
    (hsound : document.isSound context = true) {e : ExecError}
    (h : (execute ⟨.standard, limit⟩ document context).1 = .error e) : e.IsDynamic limit := by
  have hcovers : Covers (fun name => (context.parameter? name).isSome) context.parameters
      NamedStacks.empty.lookup := fun name hname => .inr hname
  have hagree := @agree_runNodes_of_areSound limit context.parameters _ _ hsound
    ⟨.empty, context⟩ ⟨.empty, context⟩ ⟨rfl, hcovers⟩ ⟨rfl, rfl⟩
  exact hagree.failure e h

theorem isDynamic_of_invalid_pattern :
    let document : Document := ⟨[.forLoop ⟨"i", .int 1, .var "n", none⟩
      [.echo [.var "i", .function "dup", .operator .mul, .str "q", .function "decfmt"]]]⟩
    let context := Context.buffered.setParameter "n" "3"
    document.isSound context = true ∧
      ∃ e, (execute ⟨.standard, 2⟩ document context).1 = .error e ∧ e.IsDynamic 2 := by
  intro document context
  have hsound : document.isSound context = true := by decide +kernel
  have herror : (execute ⟨.standard, 2⟩ document context).1 =
      .error (.function "decfmt" "invalid decimal pattern `q`") := by
    decide +kernel
  exact ⟨hsound, _, herror, isDynamic_of_execute_error 2 document context hsound herror⟩

end Interpreter

end TagTemplate
