import TagTemplate.NamedStacks

/-!
Calls on the stack of one name, and what they answer.

A failing call leaves the store as it was.
-/

namespace TagTemplate

inductive StackCall where
  | push (value : Value)
  | pop
  | peek
  | replace (value : Value)
  | add (value : Value)
  | isEmpty
  | lookup
  | depth

inductive StackReply where
  | done
  | value (value : Value)
  | emptiness (isEmpty : Bool)
  | found (value : Option Value)
  | size (depth : Nat)
  | stackError (e : StackError)
  | valueError (e : ValueError)
  deriving DecidableEq

namespace NamedStacks

def callAdd (store : NamedStacks) (name : String) (value : Value) : StackReply × NamedStacks :=
  match store.peek name with
  | .error e => (.stackError e, store)
  | .ok top =>
      match Value.apply .add top value with
      | .error e => (.valueError e, store)
      | .ok sum =>
          match store.setTop name sum with
          | .error e => (.stackError e, store)
          | .ok after => (.value sum, after)

def call (store : NamedStacks) (name : String) : StackCall → StackReply × NamedStacks
  | .push value => (.done, store.push name value)
  | .pop =>
      match store.pop name with
      | .ok (top, after) => (.value top, after)
      | .error e => (.stackError e, store)
  | .peek =>
      match store.peek name with
      | .ok top => (.value top, store)
      | .error e => (.stackError e, store)
  | .replace value =>
      match store.setTop name value with
      | .ok after => (.done, after)
      | .error e => (.stackError e, store)
  | .add value => store.callAdd name value
  | .isEmpty =>
      match store.isEmpty name with
      | .ok isEmpty => (.emptiness isEmpty, store)
      | .error e => (.stackError e, store)
  | .lookup => (.found (store.lookup name), store)
  | .depth => (.size (store.depth name), store)

end NamedStacks

end TagTemplate
