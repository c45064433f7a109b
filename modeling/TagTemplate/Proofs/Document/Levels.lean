import Mathlib.Data.List.Chain
import TagTemplate.Document
import TagTemplate.Token.Lexer

/-!
Well-formed and canonical documents.

The *levels* of a document are its lists of siblings: the list at the root and the body of every
loop.  A document is well formed if its nodes have a spelling in source, and canonical if in
addition the texts of each level are as long as they can be: none is empty and none stands next
to another.  `Document.normalize` joins the texts of a well-formed document, which makes it
canonical and does not change its source.
-/

namespace TagTemplate

/-! ## Levels -/

/-- Induction on a list of nodes and on the bodies of its loops. -/
@[elab_as_elim]
theorem Node.listInduction {motive : List Node → Prop} (nil : motive [])
    (text : ∀ content rest, motive rest → motive (.text content :: rest))
    (echo : ∀ elements rest, motive rest → motive (.echo elements :: rest))
    (forLoop : ∀ header body rest, motive body → motive rest →
      motive (.forLoop header body :: rest)) :
    ∀ nodes, motive nodes
  | [] => nil
  | .text content :: rest => text content rest (listInduction nil text echo forLoop rest)
  | .echo elements :: rest => echo elements rest (listInduction nil text echo forLoop rest)
  | .forLoop header body :: rest =>
      forLoop header body rest (listInduction nil text echo forLoop body)
        (listInduction nil text echo forLoop rest)

mutual

def Node.levels : Node → List (List Node)
  | .forLoop _ body => body :: Node.levelsAll body
  | _ => []

def Node.levelsAll : List Node → List (List Node)
  | [] => []
  | node :: rest => node.levels ++ Node.levelsAll rest

end

@[simp] theorem Node.levelsAll_text (content : String) (rest : List Node) :
    Node.levelsAll (.text content :: rest) = Node.levelsAll rest := by
  simp [Node.levelsAll, Node.levels]

@[simp] theorem Node.levelsAll_echo (elements : List Element) (rest : List Node) :
    Node.levelsAll (.echo elements :: rest) = Node.levelsAll rest := by
  simp [Node.levelsAll, Node.levels]

@[simp] theorem Node.levelsAll_forLoop (header : LoopHeader) (body rest : List Node) :
    Node.levelsAll (.forLoop header body :: rest) =
      body :: (Node.levelsAll body ++ Node.levelsAll rest) := by
  simp [Node.levelsAll, Node.levels]

def Document.levels (d : Document) : List (List Node) := d.children :: Node.levelsAll d.children

/-! ## Well-formed documents -/

/-- A letter followed by letters, numbers and underscores. -/
def isName (name : String) : Bool :=
  startsWith Text.isAlphabetic name.toList && name.toList.all isWordChar

namespace Element

def isBound : Element → Bool
  | var _ | int _ | str _ => true
  | _ => false

def isSpellable : Element → Bool
  | var name | function name => isName name
  | real x => x.isFinite
  | _ => true

end Element

namespace Node

/-- Echoes have elements, and the bounds of loops are variables, integers and strings. -/
def isGrammatical : Node → Bool
  | text _ => true
  | echo elements => !elements.isEmpty
  | forLoop header _ => header.bounds.all Element.isBound

/-- Names are names, and reals are finite. -/
def isSpellable : Node → Bool
  | text _ => true
  | echo elements => elements.all Element.isSpellable
  | forLoop header _ => isName header.counter && header.bounds.all Element.isSpellable

def isWellFormed (node : Node) : Bool := node.isGrammatical && node.isSpellable

end Node

def Document.IsGrammatical (d : Document) : Prop :=
  ∀ level ∈ d.levels, ∀ node ∈ level, node.isGrammatical = true

def Document.IsWellFormed (d : Document) : Prop :=
  ∀ level ∈ d.levels, ∀ node ∈ level, node.isWellFormed = true

instance (d : Document) : Decidable d.IsWellFormed :=
  inferInstanceAs (Decidable (∀ level ∈ d.levels, ∀ node ∈ level, node.isWellFormed = true))

/-! ## Canonical documents -/

def Node.isText : Node → Bool
  | text _ => true
  | _ => false

/-- No text is empty, no two texts are adjacent, and all nodes are well formed. -/
structure CanonicalLevel (level : List Node) : Prop where
  nonempty : Node.text "" ∉ level
  apart : level.IsChain fun a b => ¬(a.isText = true ∧ b.isText = true)
  wellFormed : ∀ node ∈ level, node.isWellFormed = true

def Document.IsCanonical (d : Document) : Prop := ∀ level ∈ d.levels, CanonicalLevel level

/-! ## Joining texts -/

/-- Puts a node in front of its siblings; a text is joined to a text that follows. -/
def Node.consJoined : Node → List Node → List Node
  | .text content, .text next :: rest => .text (content ++ next) :: rest
  | .text content, rest => if content = "" then rest else .text content :: rest
  | node, rest => node :: rest

mutual

def Node.normalize : Node → Node
  | .forLoop header body => .forLoop header (Node.normalizeAll body)
  | node => node

def Node.normalizeAll : List Node → List Node
  | [] => []
  | node :: rest => node.normalize.consJoined (Node.normalizeAll rest)

end

/-- Drops empty texts and joins adjacent ones, at all levels. -/
def Document.normalize (d : Document) : Document := ⟨Node.normalizeAll d.children⟩

theorem Node.isWellFormed_normalize (node : Node) :
    node.normalize.isWellFormed = node.isWellFormed := by
  cases node <;> simp [Node.normalize, isWellFormed, isGrammatical, isSpellable]

theorem Node.consJoined_text {content : String} {rest : List Node}
    (hrest : ∀ next ∈ rest.head?, next.isText = false) :
    (Node.text content).consJoined rest =
      if content = "" then rest else .text content :: rest := by
  cases rest with
  | nil => rfl
  | cons next rest =>
      cases next with
      | text next => simp [isText] at hrest
      | echo elements => rfl
      | forLoop header body => rfl

theorem Node.spellingAll_consJoined (node : Node) (rest : List Node) :
    Node.spellingAll (node.consJoined rest) = node.spelling ++ Node.spellingAll rest := by
  unfold consJoined
  split
  · simp [Node.spellingAll, Node.spelling]
  · split
    · rename_i hempty
      simp [hempty, Node.spelling]
    · rfl
  · rfl

theorem Node.levelsAll_consJoined (node : Node) (rest : List Node) :
    Node.levelsAll (node.consJoined rest) = node.levels ++ Node.levelsAll rest := by
  unfold consJoined
  split
  · simp [Node.levels]
  · split <;> simp [Node.levels]
  · rfl

theorem canonicalLevel_nil : CanonicalLevel [] := ⟨by simp, .nil, by simp⟩

theorem canonicalLevel_cons {node : Node} {rest : List Node} :
    CanonicalLevel (node :: rest) ↔
      node ≠ .text "" ∧ (∀ next ∈ rest.head?, ¬(node.isText = true ∧ next.isText = true)) ∧
        node.isWellFormed = true ∧ CanonicalLevel rest := by
  constructor
  · rintro ⟨hnonempty, hapart, hwellFormed⟩
    rw [List.isChain_cons] at hapart
    rw [List.mem_cons, not_or] at hnonempty
    rw [List.forall_mem_cons] at hwellFormed
    exact ⟨Ne.symm hnonempty.1, hapart.1, hwellFormed.1, hnonempty.2, hapart.2, hwellFormed.2⟩
  · rintro ⟨hne, hhead, hnode, hnonempty, hapart, hwellFormed⟩
    refine ⟨?_, List.isChain_cons.mpr ⟨hhead, hapart⟩, List.forall_mem_cons.mpr ⟨hnode, hwellFormed⟩⟩
    rw [List.mem_cons, not_or]
    exact ⟨Ne.symm hne, hnonempty⟩

theorem CanonicalLevel.cons_tag {rest : List Node} (h : CanonicalLevel rest) {node : Node}
    (htag : node.isText = false) (hnode : node.isWellFormed = true) :
    CanonicalLevel (node :: rest) := by
  refine canonicalLevel_cons.mpr ⟨?_, by simp [htag], hnode, h⟩
  rintro rfl
  contradiction

theorem CanonicalLevel.consJoined_text {rest : List Node} (h : CanonicalLevel rest)
    (content : String) : CanonicalLevel ((Node.text content).consJoined rest) := by
  by_cases hrest : ∀ next ∈ rest.head?, next.isText = false
  · rw [Node.consJoined_text hrest]
    split
    · exact h
    · rename_i hne
      refine canonicalLevel_cons.mpr ⟨by simpa using hne, ?_, rfl, h⟩
      rintro next hnext ⟨-, htext⟩
      rw [hrest next hnext] at htext
      contradiction
  · cases rest with
    | nil => simp at hrest
    | cons next rest =>
        cases next with
        | text next =>
            obtain ⟨hne, hhead, -, hrest⟩ := canonicalLevel_cons.mp h
            refine canonicalLevel_cons.mpr ⟨?_, hhead, rfl, hrest⟩
            simp_all [String.append_eq_empty_iff]
        | echo elements => simp [Node.isText] at hrest
        | forLoop header body => simp [Node.isText] at hrest

theorem CanonicalLevel.consJoined {rest : List Node} (h : CanonicalLevel rest) {node : Node}
    (hnode : node.isWellFormed = true) : CanonicalLevel (node.consJoined rest) := by
  cases node with
  | text content => exact h.consJoined_text content
  | echo elements => exact h.cons_tag rfl hnode
  | forLoop header body => exact h.cons_tag rfl hnode

theorem Node.spellingAll_normalizeAll (nodes : List Node) :
    Node.spellingAll (Node.normalizeAll nodes) = Node.spellingAll nodes := by
  induction nodes using Node.listInduction with
  | nil => rfl
  | text content rest ih =>
      rw [Node.normalizeAll, spellingAll_consJoined, ih]
      rfl
  | echo elements rest ih =>
      rw [Node.normalizeAll, spellingAll_consJoined, ih]
      rfl
  | forLoop header body rest ihBody ihRest =>
      rw [Node.normalizeAll, spellingAll_consJoined, ihRest, Node.normalize, Node.spelling, ihBody]
      rfl

theorem Node.canonicalLevel_normalizeAll (nodes : List Node)
    (h : ∀ level ∈ nodes :: Node.levelsAll nodes, ∀ node ∈ level, node.isWellFormed = true) :
    ∀ level ∈ Node.normalizeAll nodes :: Node.levelsAll (Node.normalizeAll nodes),
      CanonicalLevel level := by
  induction nodes using Node.listInduction with
  | nil => simpa [Node.normalizeAll, Node.levelsAll] using canonicalLevel_nil
  | text content rest ih =>
      simp only [levelsAll_text, List.forall_mem_cons] at h ih
      obtain ⟨hrest, hbelow⟩ := ih ⟨h.1.2, h.2⟩
      rw [Node.normalizeAll, levelsAll_consJoined, List.forall_mem_cons]
      exact ⟨hrest.consJoined rfl, hbelow⟩
  | echo elements rest ih =>
      simp only [levelsAll_echo, List.forall_mem_cons] at h ih
      obtain ⟨hrest, hbelow⟩ := ih ⟨h.1.2, h.2⟩
      rw [Node.normalizeAll, levelsAll_consJoined, List.forall_mem_cons]
      exact ⟨hrest.consJoined h.1.1, hbelow⟩
  | forLoop header body rest ihBody ihRest =>
      simp only [levelsAll_forLoop, List.forall_mem_cons, List.forall_mem_append] at h ihBody ihRest
      obtain ⟨⟨hnode, hsiblings⟩, hbody, hbelowBody, hbelowRest⟩ := h
      obtain ⟨hrest, hbelow⟩ := ihRest ⟨hsiblings, hbelowRest⟩
      rw [Node.normalizeAll, levelsAll_consJoined, List.forall_mem_cons, List.forall_mem_append]
      refine ⟨hrest.consJoined (by rwa [isWellFormed_normalize]), ?_, hbelow⟩
      rw [Node.normalize, Node.levels, List.forall_mem_cons]
      exact ihBody ⟨hbody, hbelowBody⟩

namespace Document

theorem source_normalize (d : Document) : d.normalize.source = d.source := by
  rw [source, normalize, Node.spellingAll_normalizeAll, source]

theorem isCanonical_normalize {d : Document} (h : d.IsWellFormed) : d.normalize.IsCanonical :=
  Node.canonicalLevel_normalizeAll d.children h

end Document

end TagTemplate
