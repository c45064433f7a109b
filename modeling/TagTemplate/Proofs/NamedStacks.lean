import TagTemplate.NamedStacks.Call

/-!
Named stacks over whole histories of calls.

Each name has a stack of its own: a call answers as a plain list does that is absent before its
first push (`StackCall.onList`), and leaves the stacks of all other names alone.  So a history of
calls, taken for one name, is that of one list, and the failures of its calls can be told from the
pushes and the pops before them (`NamedStacks.history_of_each_name`).
-/

namespace TagTemplate

/-! ## One list -/

def StackReply.isFailure : StackReply → Bool
  | stackError _ | valueError _ => true
  | _ => false

namespace StackCall

/-- How a list answers that holds the values from the top, and is absent before the first push. -/
def onList (name : String) : StackCall → Option (List Value) → StackReply × Option (List Value)
  | push value, values => (.done, some (value :: values.getD []))
  | lookup, values => (.found (values.getD []).head?, values)
  | depth, values => (.size (values.getD []).length, values)
  | _, none => (.stackError (.unknown name), none)
  | isEmpty, some values => (.emptiness values.isEmpty, some values)
  | _, some [] => (.stackError (.empty name), some [])
  | pop, some (top :: below) => (.value top, some below)
  | peek, some (top :: below) => (.value top, some (top :: below))
  | replace value, some (_ :: below) => (.done, some (value :: below))
  | add value, some (top :: below) =>
      match Value.apply .add top value with
      | .ok sum => (.value sum, some (sum :: below))
      | .error e => (.valueError e, some (top :: below))

/-- The answers of one list to one call after the other. -/
def repliesOnList (name : String) : Option (List Value) → List StackCall → List StackReply
  | _, [] => []
  | values, call :: calls =>
      (call.onList name values).1 :: repliesOnList name (call.onList name values).2 calls

def isPush : StackCall → Bool
  | push _ => true
  | _ => false

def isPop : StackCall → Bool
  | pop => true
  | _ => false

/-- Calls that fail on a name that was never pushed. -/
def needsStack : StackCall → Bool
  | pop | peek | replace _ | add _ | isEmpty => true
  | push _ | lookup | depth => false

/-- Calls that fail on an empty stack. -/
def needsTop : StackCall → Bool
  | pop | peek | replace _ | add _ => true
  | push _ | isEmpty | lookup | depth => false

variable (call : StackCall) (name : String)

theorem onList_none (h : call.needsStack = true) :
    call.onList name none = (.stackError (.unknown name), none) := by
  cases call <;> first | rfl | contradiction

theorem onList_nil (h : call.needsTop = true) :
    call.onList name (some []) = (.stackError (.empty name), some []) := by
  cases call <;> first | rfl | contradiction

theorem needsStack_of_needsTop (h : call.needsTop = true) : call.needsStack = true := by
  cases call <;> first | rfl | contradiction

/-- Only a push makes an absent list present. -/
theorem onList_eq_none_iff (values : Option (List Value)) :
    (call.onList name values).2 = none ↔ values = none ∧ call.isPush = false := by
  rcases values with _ | _ | ⟨top, below⟩
  · cases call <;> simp [onList, isPush]
  · cases call <;> simp [onList, isPush]
  · cases call with
    | add value => cases h : Value.apply .add top value <;> simp [onList, h]
    | _ => simp [onList]

/-- The list grows by each push, and shrinks by each pop that succeeds. -/
theorem length_onList (values : Option (List Value)) :
    ((call.onList name values).2.getD []).length +
        (if call.isPop && !(call.onList name values).1.isFailure then 1 else 0) =
      (values.getD []).length + (if call.isPush then 1 else 0) := by
  rcases values with _ | _ | ⟨top, below⟩
  · cases call <;> rfl
  · cases call <;> rfl
  · cases call with
    | add value => cases h : Value.apply .add top value <;> simp [onList, h, isPop, isPush]
    | _ => rfl

theorem onList_eq_unknown_iff (values : Option (List Value)) (other : String) :
    (call.onList name values).1 = .stackError (.unknown other) ↔
      call.needsStack = true ∧ other = name ∧ values = none := by
  rcases values with _ | _ | ⟨top, below⟩
  · cases call <;> simp [onList, needsStack, eq_comm]
  · cases call <;> simp [onList]
  · cases call with
    | add value => cases h : Value.apply .add top value <;> simp [onList, h]
    | _ => simp [onList]

theorem onList_eq_empty_iff (values : Option (List Value)) (other : String) :
    (call.onList name values).1 = .stackError (.empty other) ↔
      call.needsTop = true ∧ other = name ∧ values = some [] := by
  rcases values with _ | _ | ⟨top, below⟩
  · cases call <;> simp [onList]
  · cases call <;> simp [onList, needsTop, eq_comm]
  · cases call with
    | add value => cases h : Value.apply .add top value <;> simp [onList, h]
    | _ => simp [onList]

end StackCall

/-! ## Calls on named stacks -/

namespace NamedStacks

section Split

variable {store : NamedStacks} {name : String}

theorem split_of_unknown (h : store.byName.find? name = none) :
    store.split name = .error (.unknown name) := by
  simp [split, stack, h, bind, Except.bind]

theorem split_of_empty (h : store.byName.find? name = some []) :
    store.split name = .error (.empty name) := by
  simp [split, stack, h, bind, Except.bind]

theorem split_of_top {top : Value} {below : List Value}
    (h : store.byName.find? name = some (top :: below)) : store.split name = .ok (top, below) := by
  simp [split, stack, h, bind, Except.bind]

theorem call_of_split_error {call : StackCall} (hneeds : call.needsTop = true) {e : StackError}
    (h : store.split name = .error e) : store.call name call = (.stackError e, store) := by
  cases call with
  | pop => simp [call, pop, h, bind, Except.bind]
  | peek => simp [call, peek, h, bind, Except.bind]
  | replace value => simp [call, setTop, h, bind, Except.bind]
  | add value => simp [call, callAdd, peek, h, bind, Except.bind]
  | _ => contradiction

end Split

/-- From `store` to `after`, the stack of a name has become `found`, and no other has changed. -/
def Becomes (store after : NamedStacks) (name : String) (found : Option (List Value)) : Prop :=
  ∀ other, after.byName.find? other = if other = name then found else store.byName.find? other

theorem becomes_same (store : NamedStacks) (name : String) :
    store.Becomes store name (store.byName.find? name) := by
  intro other
  split
  · next h => rw [h]
  · rfl

theorem becomes_insert (store : NamedStacks) (name : String) (values : List Value) :
    store.Becomes ⟨store.byName.insert name values⟩ name (some values) :=
  fun other => NameMap.find?_insert store.byName name other values

/-- A call is answered by the list of its name, and changes no other. -/
structure Answers (store : NamedStacks) (name : String) (answer : StackReply × NamedStacks)
    (expected : StackReply × Option (List Value)) : Prop where
  reply : answer.1 = expected.1
  becomes : store.Becomes answer.2 name expected.2

theorem answers_of_top {store : NamedStacks} {name : String} {top : Value} {below : List Value}
    (h : store.byName.find? name = some (top :: below)) {call : StackCall}
    (hneeds : call.needsTop = true) :
    store.Answers name (store.call name call) (call.onList name (some (top :: below))) := by
  have hsplit := split_of_top h
  have hsame := store.becomes_same name
  have hinsert := store.becomes_insert name
  rw [h] at hsame
  cases call with
  | pop =>
      have hcall : store.call name .pop = (.value top, ⟨store.byName.insert name below⟩) := by
        simp [call, pop, hsplit, bind, Except.bind]
      rw [hcall]
      exact ⟨rfl, hinsert below⟩
  | peek =>
      have hcall : store.call name .peek = (.value top, store) := by
        simp [call, peek, hsplit, bind, Except.bind]
      rw [hcall]
      exact ⟨rfl, hsame⟩
  | replace value =>
      have hcall : store.call name (.replace value) =
          (.done, ⟨store.byName.insert name (value :: below)⟩) := by
        simp [call, setTop, hsplit, bind, Except.bind]
      rw [hcall]
      exact ⟨rfl, hinsert (value :: below)⟩
  | add value =>
      cases hsum : Value.apply .add top value with
      | ok sum =>
          have hcall : store.call name (.add value) =
              (.value sum, ⟨store.byName.insert name (sum :: below)⟩) := by
            simp [call, callAdd, peek, setTop, hsplit, bind, Except.bind, hsum]
          rw [hcall, StackCall.onList, hsum]
          exact ⟨rfl, hinsert (sum :: below)⟩
      | error e =>
          have hcall : store.call name (.add value) = (.valueError e, store) := by
            simp [call, callAdd, peek, hsplit, bind, Except.bind, hsum]
          rw [hcall, StackCall.onList, hsum]
          exact ⟨rfl, hsame⟩
  | _ => contradiction

theorem call_answers (store : NamedStacks) (name : String) (call : StackCall) :
    store.Answers name (store.call name call) (call.onList name (store.byName.find? name)) := by
  have hsame := store.becomes_same name
  by_cases hneeds : call.needsTop = true
  · rcases hfind : store.byName.find? name with _ | _ | ⟨top, below⟩
    · rw [call_of_split_error hneeds (split_of_unknown hfind),
        call.onList_none name (call.needsStack_of_needsTop hneeds)]
      exact ⟨rfl, hfind ▸ hsame⟩
    · rw [call_of_split_error hneeds (split_of_empty hfind), call.onList_nil name hneeds]
      exact ⟨rfl, hfind ▸ hsame⟩
    · exact answers_of_top hfind hneeds
  · cases call with
    | push value => exact ⟨rfl, store.becomes_insert name _⟩
    | lookup => exact ⟨rfl, hsame⟩
    | depth => exact ⟨rfl, hsame⟩
    | isEmpty =>
        cases hfind : store.byName.find? name <;> rw [hfind] at hsame
        case none =>
            have hcall : store.call name .isEmpty = (.stackError (.unknown name), store) := by
              simp [call, isEmpty, stack, hfind, bind, Except.bind]
            rw [hcall]
            exact ⟨rfl, hsame⟩
        case some values =>
            have hcall : store.call name .isEmpty = (.emptiness values.isEmpty, store) := by
              simp [call, isEmpty, stack, hfind, bind, Except.bind]
            rw [hcall]
            exact ⟨rfl, hsame⟩
    | _ => exact absurd rfl hneeds

theorem call_of_isFailure {store : NamedStacks} {name : String} {call : StackCall}
    (h : (store.call name call).1.isFailure = true) : (store.call name call).2 = store := by
  cases call with
  | add value =>
      simp only [NamedStacks.call, callAdd] at h ⊢
      split at h <;> try rfl
      split at h <;> try rfl
      split at h
      · rfl
      · contradiction
  | push value => contradiction
  | lookup => rfl
  | depth => rfl
  | _ =>
      simp only [NamedStacks.call] at h ⊢
      split at h <;> first | rfl | contradiction

theorem lookup_eq_peek (store : NamedStacks) (name : String) :
    store.lookup name = (store.peek name).toOption := by
  rcases hfind : store.byName.find? name with _ | _ | ⟨top, below⟩
  · simp [lookup, values, hfind, peek, split_of_unknown hfind, bind, Except.bind, Except.toOption]
  · simp [lookup, values, hfind, peek, split_of_empty hfind, bind, Except.bind, Except.toOption]
  · simp [lookup, values, hfind, peek, split_of_top hfind, bind, Except.bind, Except.toOption]

end NamedStacks

/-! ## Histories -/

/-- A call on a name, and what was answered. -/
structure StackExchange where
  name : String
  call : StackCall
  reply : StackReply

namespace StackExchange

def isPushOn (name : String) (exchange : StackExchange) : Bool :=
  exchange.name = name && exchange.call.isPush

/-- A pop that succeeded. -/
def isPopOn (name : String) (exchange : StackExchange) : Bool :=
  exchange.name = name && (exchange.call.isPop && !exchange.reply.isFailure)

end StackExchange

namespace NamedStacks

def afterCalls (store : NamedStacks) : List (String × StackCall) → NamedStacks
  | [] => store
  | (name, call) :: calls => (store.call name call).2.afterCalls calls

def history (store : NamedStacks) : List (String × StackCall) → List StackExchange
  | [] => []
  | (name, call) :: calls =>
      ⟨name, call, (store.call name call).1⟩ :: (store.call name call).2.history calls

theorem find?_call (store : NamedStacks) (name : String) (call : StackCall) (other : String) :
    (store.call name call).2.byName.find? other =
      if other = name then (call.onList name (store.byName.find? name)).2
      else store.byName.find? other :=
  (store.call_answers name call).becomes other

theorem replies_on_name (store : NamedStacks) (calls : List (String × StackCall)) (name : String) :
    ((store.history calls).filter (·.name = name)).map (·.reply) =
      StackCall.repliesOnList name (store.byName.find? name)
        ((calls.filter (·.1 = name)).map (·.2)) := by
  induction calls generalizing store with
  | nil => rfl
  | cons step calls ih =>
      obtain ⟨called, call⟩ := step
      have hrest := ih (store.call called call).2
      rw [find?_call] at hrest
      by_cases h : called = name
      · subst h
        rw [if_pos rfl] at hrest
        simp [history, StackCall.repliesOnList, hrest, (store.call_answers called call).reply]
      · rw [if_neg (Ne.symm h)] at hrest
        simp [history, h, hrest]

theorem find?_afterCalls_eq_none_iff (store : NamedStacks) (calls : List (String × StackCall))
    (name : String) :
    (store.afterCalls calls).byName.find? name = none ↔
      store.byName.find? name = none ∧ (store.history calls).countP (·.isPushOn name) = 0 := by
  induction calls generalizing store with
  | nil => simp [afterCalls, history]
  | cons step calls ih =>
      obtain ⟨called, call⟩ := step
      rw [afterCalls, ih, history, List.countP_cons, find?_call]
      by_cases h : name = called
      · subst h
        rw [if_pos rfl, StackCall.onList_eq_none_iff]
        cases hpush : call.isPush <;> simp [StackExchange.isPushOn, hpush]
      · simp [StackExchange.isPushOn, h, Ne.symm h]

theorem depth_afterCalls (store : NamedStacks) (calls : List (String × StackCall))
    (name : String) :
    (store.afterCalls calls).depth name + (store.history calls).countP (·.isPopOn name) =
      store.depth name + (store.history calls).countP (·.isPushOn name) := by
  induction calls generalizing store with
  | nil => rfl
  | cons step calls ih =>
      obtain ⟨called, call⟩ := step
      have hrest := ih (store.call called call).2
      rw [afterCalls, history, List.countP_cons, List.countP_cons]
      simp only [depth, values, find?_call] at hrest ⊢
      by_cases h : name = called
      · subst h
        have hlength := call.length_onList name (store.byName.find? name)
        rw [← (store.call_answers name call).reply] at hlength
        simp only [if_true, StackExchange.isPushOn, StackExchange.isPopOn, decide_true,
          Bool.true_and] at hrest ⊢
        omega
      · simp only [if_neg h] at hrest
        simp only [StackExchange.isPushOn, StackExchange.isPopOn, Ne.symm h, decide_false,
          Bool.false_and] at hrest ⊢
        simpa using hrest

/--
Every history of calls is, name by name, that of one list: a name is unknown before its first
push and empty once all pushes have been popped, the depth is the number of pushes that have not
been popped, looking up finds what peeking does, and a call that fails changes nothing.
-/
theorem history_of_each_name (calls : List (String × StackCall)) (name : String) :
    let history := empty.history calls
    let store := empty.afterCalls calls
    let pushes := history.countP (·.isPushOn name)
    let pops := history.countP (·.isPopOn name)
    (history.filter (·.name = name)).map (·.reply) =
        StackCall.repliesOnList name none ((calls.filter (·.1 = name)).map (·.2)) ∧
      (∀ call other, (store.call name call).1 = .stackError (.unknown other) ↔
        call.needsStack = true ∧ other = name ∧ pushes = 0) ∧
      (∀ call other, (store.call name call).1 = .stackError (.empty other) ↔
        call.needsTop = true ∧ other = name ∧ 0 < pushes ∧ pops = pushes) ∧
      pops ≤ pushes ∧ store.depth name = pushes - pops ∧
      store.lookup name = (store.peek name).toOption ∧
      ∀ call, (store.call name call).1.isFailure = true → (store.call name call).2 = store := by
  intro history store pushes pops
  have hknown : store.byName.find? name = none ↔ pushes = 0 := by
    rw [find?_afterCalls_eq_none_iff]
    exact and_iff_right rfl
  have hdepth : store.depth name + pops = pushes :=
    (empty.depth_afterCalls calls name).trans (Nat.zero_add _)
  have hemptied : store.byName.find? name = some [] ↔ 0 < pushes ∧ pops = pushes := by
    unfold depth values at hdepth
    rcases hfind : store.byName.find? name with _ | _ | ⟨top, below⟩ <;>
      simp only [hfind, Option.getD, List.length_nil, List.length_cons, reduceCtorEq, true_iff,
        false_iff, Option.some.injEq] at hknown hdepth ⊢ <;> omega
  refine ⟨empty.replies_on_name calls name, ?_, ?_, by omega, by omega, store.lookup_eq_peek name,
    fun call => call_of_isFailure⟩
  · intro call other
    rw [(store.call_answers name call).reply, StackCall.onList_eq_unknown_iff, hknown]
  · intro call other
    rw [(store.call_answers name call).reply, StackCall.onList_eq_empty_iff, hemptied]

theorem history_of_each_name_after_failures :
    let calls : List (String × StackCall) :=
      [("a", .pop), ("a", .push (.str "x")), ("b", .push .null), ("b", .pop), ("a", .add (.int 1))]
    let store := empty.afterCalls calls
    (store.call "a" (.add (.int 1))).1 = .valueError (.notNumeric "x") ∧
      (store.call "a" (.add (.int 1))).2 = store ∧
      store.depth "a" = 1 ∧
      (store.call "b" .peek).1 = .stackError (.empty "b") ∧
      (store.call "c" .peek).1 = .stackError (.unknown "c") := by
  intro calls store
  have hadd : (store.call "a" (.add (.int 1))).1 = .valueError (.notNumeric "x") := by
    decide +kernel
  obtain ⟨-, -, -, -, hdepth, -, hfails⟩ := history_of_each_name calls "a"
  obtain ⟨-, -, hempty, -⟩ := history_of_each_name calls "b"
  obtain ⟨-, hunknown, -⟩ := history_of_each_name calls "c"
  exact ⟨hadd, hfails (.add (.int 1)) (by rw [hadd]; rfl), hdepth.trans (by decide +kernel),
    (hempty .peek "b").mpr (by decide +kernel), (hunknown .peek "c").mpr (by decide +kernel)⟩

end NamedStacks

end TagTemplate
