import TagTemplate.Proofs.Execution.Invariant

/-!
What a run depends on.

A document learns of a parameter by calling a function that gets it or, for a request parameter,
by using its name as a variable that no loop binds.  Two contexts that differ in nothing else that
the document reads lead to the same result and the same output
(`Context.Congruence.agree_runNodes`).
-/

namespace TagTemplate

/-! ## Free variables and calls -/

mutual

def Node.hasFree (name : String) : Node → Bool
  | .text _ => false
  | .echo elements => elements.contains (.var name)
  | .forLoop header body =>
      header.bounds.contains (.var name) || (header.counter != name && Node.haveFree name body)

/-- The name is used as a variable outside the bodies of loops over it. -/
def Node.haveFree (name : String) : List Node → Bool
  | [] => false
  | node :: rest => node.hasFree name || Node.haveFree name rest

end

mutual

def Node.calls (f : StandardFunction) : Node → Bool
  | .text _ => false
  | .echo elements => elements.contains (.function f.name)
  | .forLoop _ body => Node.callAny f body

def Node.callAny (f : StandardFunction) : List Node → Bool
  | [] => false
  | node :: rest => node.calls f || Node.callAny f rest

end

def Document.hasFree (document : Document) (name : String) : Bool :=
  Node.haveFree name document.children

def Document.calls (document : Document) (f : StandardFunction) : Bool :=
  Node.callAny f document.children

/-! ## Related contexts -/

/-- Functions and writing keep contexts related, and writing succeeds in both or in neither. -/
structure Context.Congruence (K : Context → Context → Prop) : Prop where
  kept : Kept K
  write : ∀ text context context', K context context' →
    (context.write text).1 = (context'.write text).1 ∧
      K (context.write text).2 (context'.write text).2

/-- Related contexts have the same parameter of the name. -/
def Context.Share (K : Context → Context → Prop) (name : String) : Prop :=
  ∀ context context', K context context' → context.parameter? name = context'.parameter? name

/-- The same view; every known name has a value there or is a shared parameter. -/
def SeeShared (known : String → Prop) (K : Context → Context → Prop) (f g : View) : Prop :=
  f = g ∧ ∀ name, known name → (f name).isSome = true ∨ Context.Share K name

theorem SeeShared.of_rebound {known : String → Prop} {K : Context → Context → Prop}
    {counter : String} {f g : View} (h : Rebound counter (SeeShared known K) f g) :
    SeeShared (fun name => name = counter ∨ known name) K f g := by
  obtain ⟨f, _, value, ⟨rfl, hknown⟩, rfl, rfl⟩ := h
  refine ⟨rfl, fun name hname => ?_⟩
  by_cases hcounter : name = counter
  · rw [hcounter, Function.update_self]
    exact .inl rfl
  · rw [Function.update_of_ne hcounter]
    exact hknown name (hname.resolve_left hcounter)

theorem resolve_of_isSome_or {scope : NamedStacks} {name : String} {context context' : Context}
    (h : (scope.lookup name).isSome = true ∨
      context.parameter? name = context'.parameter? name) :
    resolve scope context name = resolve scope context' name := by
  unfold resolve
  cases hlookup : scope.lookup name with
  | some value => rfl
  | none =>
      rw [hlookup] at h
      simp only [Option.isSome_none, Bool.false_eq_true, false_or] at h
      rw [h]

section SeeShared

variable {known : String → Prop} {K : Context → Context → Prop} {m n : Machine}
  (hview : SeeShared known K m.scope.lookup n.scope.lookup)

include hview

theorem resolve_of_seeShared {name : String} (hname : known name) {context context' : Context}
    (hcontext : K context context') :
    resolve m.scope context name = resolve n.scope context' name := by
  rw [← resolve_of_lookup (congrFun hview.1 name)]
  refine resolve_of_isSome_or ?_
  exact (hview.2 name hname).imp_right fun hshare => hshare context context' hcontext

theorem entry_of_seeShared {header : LoopHeader}
    (hfree : ∀ name, .var name ∈ header.bounds → known name)
    (hcontext : K m.context n.context) : header.entry m = header.entry n := by
  have hbound : ∀ e ∈ header.bounds, (Exec.bound e m).1 = (Exec.bound e n).1 := by
    intro e he
    cases e with
    | var name =>
        rw [Exec.bound_var, Exec.bound_var]
        exact resolve_of_seeShared hview (hfree name he) hcontext
    | _ => rfl
  refine LoopHeader.entry_congr rfl (hbound _ (by simp [LoopHeader.bounds]))
    (hbound _ (by simp [LoopHeader.bounds])) ?_
  cases hstep : header.step with
  | none => rfl
  | some step => exact hbound step (by simp [LoopHeader.bounds, hstep])

end SeeShared

/-! ## Agreement -/

namespace Context.Congruence

variable {K : Context → Context → Prop} (hK : Congruence K) {R : View → View → Prop}

include hK

theorem agree_write (text : String) :
    Exec.Agree R K (fun _ => True) (Exec.write text) (Exec.write text) := by
  intro m n _ hcontext
  obtain ⟨hresult, hwritten⟩ := hK.write text m.context n.context hcontext
  rw [Exec.write, Exec.write]
  cases hm : m.context.write text with
  | mk result context =>
      cases hn : n.context.write text with
      | mk result' context' =>
          rw [hm, hn] at hresult hwritten
          obtain rfl : result = result' := hresult
          cases result with
          | ok _ => exact .ok hwritten
          | error e => exact .error hwritten trivial

theorem agree_writeOnly (operands : List Value) :
    Exec.Agree R K (fun _ => True) (Exec.writeOnly operands) (Exec.writeOnly operands) := by
  unfold Exec.writeOnly
  split
  · exact hK.agree_write _
  · exact fun _ _ _ hcontext => .error hcontext trivial

variable {known : String → Prop}

theorem agree_echo {elements : List Element} (hfree : ∀ name, .var name ∈ elements → known name)
    (hcalls : ∀ f : StandardFunction, .function f.name ∈ elements → f.ReadsAlike K) :
    Exec.Agree (SeeShared known K) K (fun _ => True) (Exec.echo .standard elements)
      (Exec.echo .standard elements) := by
  intro m n hview hcontext
  have hsame := Eval.elements_of_lookup .standard hview.1 elements
  have hrespects : Eval.Respects K (Eval.elements .standard n.scope elements) := by
    refine Eval.respects_elements hK.kept (fun name hname context context' h => ?_) hcalls
    rw [← resolve_of_lookup (congrFun hview.1 name)]
    exact resolve_of_seeShared hview (hfree name hname) h
  obtain ⟨result, operands, after, after', hm, hn, hafter⟩ :=
    (hrespects [] m.context n.context hcontext).exists_eq
  rw [← hsame] at hm
  cases result with
  | error e =>
      rw [Exec.echo_of_error hm, Exec.echo_of_error hn]
      exact .error hafter trivial
  | ok _ =>
      rw [Exec.echo_of_ok hm, Exec.echo_of_ok hn]
      exact hK.agree_writeOnly (R := Eq) operands _ _ hview.1 hafter

/-- Runs read no parameters but those of their free variables and those that they get by a call. -/
theorem agree_runNodes (limit : UInt64) {nodes : List Node}
    (hfree : ∀ name, Node.haveFree name nodes = true → known name)
    (hcalls : ∀ f : StandardFunction, Node.callAny f nodes = true → f.ReadsAlike K) :
    Exec.Agree (SeeShared known K) K (fun _ => True)
      (Interpreter.runNodes ⟨.standard, limit⟩ nodes)
      (Interpreter.runNodes ⟨.standard, limit⟩ nodes) := by
  induction nodes using Node.listInduction generalizing known with
  | nil =>
      rw [Interpreter.runNodes]
      exact Exec.agree_pure
  | text content rest ih =>
      simp only [Node.haveFree, Node.hasFree, Node.callAny, Node.calls, Bool.false_or]
        at hfree hcalls
      rw [Interpreter.runNodes, Interpreter.runNode]
      exact (hK.agree_write content).bind (ih hfree hcalls) (Exec.balanced_write content)
        (Exec.balanced_write content)
  | echo elements rest ih =>
      simp only [Node.haveFree, Node.hasFree, Node.callAny, Node.calls, Bool.or_eq_true,
        List.contains_iff_mem] at hfree hcalls
      have hecho := hK.agree_echo (fun name h => hfree name (.inl h)) fun f h => hcalls f (.inl h)
      have hrest := ih (fun name h => hfree name (.inr h)) fun f h => hcalls f (.inr h)
      rw [Interpreter.runNodes, Interpreter.runNode]
      exact hecho.bind hrest (Exec.balanced_evaluate _) (Exec.balanced_evaluate _)
  | forLoop header body rest ihBody ihRest =>
      simp only [Node.haveFree, Node.hasFree, Node.callAny, Node.calls, Bool.or_eq_true,
        Bool.and_eq_true, bne_iff_ne, List.contains_iff_mem] at hfree hcalls
      let run := Interpreter.runNodes ⟨.standard, limit⟩
      have hbalanced : Exec.Balanced (run body) := Interpreter.balanced_runNodes _ body
      -- the counter is known in the body, where the loop binds it
      have hbodyFree : ∀ name, Node.haveFree name body = true →
          name = header.counter ∨ known name := by
        intro name hname
        by_cases hcounter : name = header.counter
        · exact .inl hcounter
        · exact .inr (hfree name (.inl (.inr ⟨Ne.symm hcounter, hname⟩)))
      have hbody : Exec.Agree (Rebound header.counter (SeeShared known K)) K (fun _ => True)
          (run body) (run body) :=
        fun m n hview hcontext => ihBody hbodyFree (fun f h => hcalls f (.inl h)) m n
          (.of_rebound hview) hcontext
      have hloop : Exec.Agree (SeeShared known K) K (fun _ => True)
          (Interpreter.forLoop ⟨.standard, limit⟩ header (run body))
          (Interpreter.forLoop ⟨.standard, limit⟩ header (run body)) := by
        refine Interpreter.agree_forLoop hbalanced hbalanced rfl (fun m n hview hcontext => ?_)
          trivial hbody
        refine ⟨entry_of_seeShared hview (fun name h => ?_) hcontext, fun _ _ => trivial⟩
        exact hfree name (.inl (.inl h))
      have hrest := ihRest (fun name h => hfree name (.inr h)) fun f h => hcalls f (.inr h)
      rw [Interpreter.runNodes, Interpreter.runNode]
      exact hloop.bind hrest (Interpreter.balanced_forLoop _ header hbalanced)
        (Interpreter.balanced_forLoop _ header hbalanced)

/-- A document that does not call `g` runs alike in contexts that only `g` can tell apart. -/
theorem execute_alike (limit : UInt64) {document : Document} {g : StandardFunction}
    (hcalls : document.calls g = false) (hreads : ∀ f, f ≠ g → f.ReadsAlike K)
    (hfree : ∀ name, document.hasFree name = true → Share K name) {context context' : Context}
    (hcontext : K context context') :
    (Interpreter.execute ⟨.standard, limit⟩ document context).1 =
        (Interpreter.execute ⟨.standard, limit⟩ document context').1 ∧
      K (Interpreter.execute ⟨.standard, limit⟩ document context).2
        (Interpreter.execute ⟨.standard, limit⟩ document context').2 := by
  have hcalled : ∀ f, document.calls f = true → f.ReadsAlike K := by
    intro f hf
    refine hreads f ?_
    rintro rfl
    simp [hcalls] at hf
  have hends := hK.agree_runNodes limit hfree hcalled ⟨.empty, context⟩ ⟨.empty, context'⟩
    ⟨rfl, fun _ => .inr⟩ hcontext
  exact ⟨hends.result, hends.context⟩

end Context.Congruence

/-! ## Parameters that are not read -/

namespace Context

def DifferInPersistent (context context' : Context) : Prop :=
  ∃ persistent, context' = { context with persistent }

def DifferInTemporary (context context' : Context) : Prop :=
  ∃ temporary, context' = { context with temporary }

/-- The contexts differ in the request parameters only, which are the ones and the others. -/
def DifferInParameters (parameters parameters' : NameMap String) (context context' : Context) :
    Prop :=
  context.parameters = parameters ∧ context' = { context with parameters := parameters' }

theorem congruence_differInPersistent : Congruence DifferInPersistent where
  kept := by
    rintro change context _ ⟨persistent, rfl⟩
    cases change <;> exact ⟨_, rfl⟩
  write := by
    rintro text context _ ⟨persistent, rfl⟩
    exact ⟨rfl, persistent, rfl⟩

theorem congruence_differInTemporary : Congruence DifferInTemporary where
  kept := by
    rintro change context _ ⟨temporary, rfl⟩
    cases change <;> exact ⟨_, rfl⟩
  write := by
    rintro text context _ ⟨temporary, rfl⟩
    exact ⟨rfl, temporary, rfl⟩

theorem congruence_differInParameters (parameters parameters' : NameMap String) :
    Congruence (DifferInParameters parameters parameters') where
  kept := by
    rintro change context _ ⟨h, rfl⟩
    cases change <;> exact ⟨h, rfl⟩
  write := by
    rintro text context _ ⟨h, rfl⟩
    exact ⟨rfl, h, rfl⟩

theorem invariant_parameters (parameters : NameMap String) :
    Invariant fun context => context.parameters = parameters where
  kept := by
    rintro change context _ ⟨rfl, h⟩
    cases change <;> exact ⟨rfl, h⟩
  write := fun _ _ h => h

end Context

namespace StandardFunction

theorem readsAlike_differInPersistent (f : StandardFunction) (hf : f ≠ persistentGet) :
    f.ReadsAlike Context.DifferInPersistent := by
  cases f with
  | persistentGet => contradiction
  | paramGet | temporaryGet =>
      rintro name context _ ⟨persistent, rfl⟩
      rfl
  | _ => trivial

theorem readsAlike_differInTemporary (f : StandardFunction) (hf : f ≠ temporaryGet) :
    f.ReadsAlike Context.DifferInTemporary := by
  cases f with
  | temporaryGet => contradiction
  | paramGet | persistentGet =>
      rintro name context _ ⟨temporary, rfl⟩
      rfl
  | _ => trivial

theorem readsAlike_differInParameters (parameters parameters' : NameMap String)
    (f : StandardFunction) (hf : f ≠ paramGet) :
    f.ReadsAlike (Context.DifferInParameters parameters parameters') := by
  cases f with
  | paramGet => contradiction
  | persistentGet | temporaryGet =>
      rintro name context _ ⟨-, rfl⟩
      rfl
  | _ => trivial

end StandardFunction

namespace Interpreter

variable (limit : UInt64) (document : Document) (context : Context)

/-- A run leaves the request parameters as they are. -/
theorem execute_parameters :
    (execute ⟨.standard, limit⟩ document context).2.parameters = context.parameters :=
  (Context.invariant_parameters context.parameters).maintains_runNodes limit document.children
    ⟨.empty, context⟩ rfl

/--
A document that gets no persistent parameters does not depend on them, nor on the temporary ones if
it gets none of those.  Of the request parameters it depends on its free variables if it gets none.
-/
theorem execute_of_unread :
    let run := execute ⟨.standard, limit⟩ document
    (document.calls .persistentGet = false → ∀ persistent, ∃ after,
      run { context with persistent } =
        ((run context).1, { (run context).2 with persistent := after })) ∧
    (document.calls .temporaryGet = false → ∀ temporary, ∃ after,
      run { context with temporary } =
        ((run context).1, { (run context).2 with temporary := after })) ∧
    (document.calls .paramGet = false → ∀ parameters,
      (∀ name, document.hasFree name = true →
        parameters.find? name = context.parameters.find? name) →
      run { context with parameters } =
        ((run context).1, { (run context).2 with parameters })) ∧
    (run context).2.parameters = context.parameters := by
  intro run
  refine ⟨fun hcalls persistent => ?_, fun hcalls temporary => ?_,
    fun hcalls parameters hparameters => ?_, execute_parameters limit document context⟩
  · have hdiffer : context.DifferInPersistent { context with persistent } := ⟨persistent, rfl⟩
    have hshare : ∀ name, document.hasFree name = true →
        Context.Share Context.DifferInPersistent name := by
      rintro name - context _ ⟨persistent, rfl⟩
      rfl
    obtain ⟨hresult, after, hafter⟩ :=
      Context.congruence_differInPersistent.execute_alike limit hcalls
        StandardFunction.readsAlike_differInPersistent hshare hdiffer
    exact ⟨after, Prod.ext hresult.symm hafter⟩
  · have hdiffer : context.DifferInTemporary { context with temporary } := ⟨temporary, rfl⟩
    have hshare : ∀ name, document.hasFree name = true →
        Context.Share Context.DifferInTemporary name := by
      rintro name - context _ ⟨temporary, rfl⟩
      rfl
    obtain ⟨hresult, after, hafter⟩ :=
      Context.congruence_differInTemporary.execute_alike limit hcalls
        StandardFunction.readsAlike_differInTemporary hshare hdiffer
    exact ⟨after, Prod.ext hresult.symm hafter⟩
  · let K := Context.DifferInParameters context.parameters parameters
    have hdiffer : K context { context with parameters } := ⟨rfl, rfl⟩
    have hshare : ∀ name, document.hasFree name = true → Context.Share K name := by
      rintro name hname context' _ ⟨hgiven, rfl⟩
      rw [Context.parameter?, hgiven]
      exact (hparameters name hname).symm
    obtain ⟨hresult, -, hafter⟩ :=
      (Context.congruence_differInParameters _ _).execute_alike limit hcalls
        (StandardFunction.readsAlike_differInParameters _ _) hshare hdiffer
    exact Prod.ext hresult.symm hafter

theorem execute_of_unread_bound_name :
    let document : Document := ⟨[.echo [.str "v", .str "k", .function "pparamSet"],
      .forLoop ⟨"i", .int 1, .var "n", none⟩
        [.echo [.var "i", .str "t", .function "tparamSet"], .echo [.var "i"]]]⟩
    let context := Context.buffered.setParameter "n" "2"
    let run := execute ⟨.standard, 5⟩ document
    let parameters := context.parameters.insert "i" "7"
    document.calls .persistentGet = false ∧ document.calls .temporaryGet = false ∧
      document.calls .paramGet = false ∧
      (∀ name, document.hasFree name = true →
        parameters.find? name = context.parameters.find? name) ∧
      (run context).1 = .ok () ∧ (run context).2.sink.bytes = "12".toUTF8 ∧
      (∀ persistent, ∃ after, run { context with persistent } =
        ((run context).1, { (run context).2 with persistent := after })) ∧
      (∀ temporary, ∃ after, run { context with temporary } =
        ((run context).1, { (run context).2 with temporary := after })) ∧
      run { context with parameters } =
        ((run context).1, { (run context).2 with parameters }) := by
  intro document context run parameters
  have hpersistent : document.calls .persistentGet = false := by decide
  have htemporary : document.calls .temporaryGet = false := by decide
  have hparam : document.calls .paramGet = false := by decide
  have hfree : ∀ name, document.hasFree name = true →
      parameters.find? name = context.parameters.find? name := by
    intro name hname
    have hne : name ≠ "i" := by
      rintro rfl
      revert hname
      decide
    rw [NameMap.find?_insert, if_neg hne]
  have hrun : (run context).1 = .ok () := by decide +kernel
  have hbytes : (run context).2.sink.bytes = "12".toUTF8 := by decide +kernel
  have hunread := execute_of_unread 5 document context
  refine ⟨hpersistent, htemporary, hparam, hfree, hrun, hbytes, ?_⟩
  -- no need to compare the runs by evaluating them
  clear_value parameters context document
  obtain ⟨hfirst, hsecond, hthird, -⟩ := hunread
  exact ⟨hfirst hpersistent, hsecond htemporary, hthird hparam parameters hfree⟩

end Interpreter

end TagTemplate
