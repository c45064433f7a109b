import TagTemplate.Proofs.Document.Failures

/-!
Nesting of loops.

Source in which every tag is well formed is a sequence of items.  Whether it parses is then a
matter of counting opening and closing tags, and the document that is read has every item in the
body of the innermost loop that is open at its place (`Document.parse_items`).
-/

namespace TagTemplate

/-! ## Items -/

/-- A closing tag belongs to no loop in particular. -/
inductive Item where
  | text (content : String)
  | echo (elements : List Element)
  | opening (header : LoopHeader)
  | closing
  deriving DecidableEq

namespace Item

def tokens : Item → List Token
  | text content => [.text content]
  | echo elements => (Node.echo elements).tokens
  | opening header => header.tokens
  | closing => [.tagOpen, .tagName "end", .tagClose]

/-- Echoes have elements, and the bounds of loops are variables, integers and strings. -/
def isWellFormed : Item → Bool
  | echo elements => !elements.isEmpty
  | opening header => header.bounds.all Element.isBound
  | _ => true

def isOpening : Item → Bool
  | opening _ => true
  | _ => false

def isClosing : Item → Bool
  | closing => true
  | _ => false

end Item

def openings (items : List Item) : Nat := items.countP Item.isOpening

def closings (items : List Item) : Nat := items.countP Item.isClosing

@[simp] theorem openings_append (items rest : List Item) :
    openings (items ++ rest) = openings items + openings rest :=
  List.countP_append

@[simp] theorem closings_append (items rest : List Item) :
    closings (items ++ rest) = closings items + closings rest :=
  List.countP_append

@[simp] theorem openings_cons (item : Item) (rest : List Item) :
    openings (item :: rest) = openings rest + if item.isOpening then 1 else 0 :=
  List.countP_cons

@[simp] theorem closings_cons (item : Item) (rest : List Item) :
    closings (item :: rest) = closings rest + if item.isClosing then 1 else 0 :=
  List.countP_cons

/-- All loops that are opened are closed again, and no others. -/
structure Balanced (items : List Item) : Prop where
  settled : closings items = openings items
  open_before : ∀ front, front <+: items → closings front ≤ openings front

/-- A prefix of joined lists ends in the first or the second one. -/
theorem closings_le_of_append {items rest : List Item} {bound : Nat}
    (h : ∀ front, front <+: items → closings front ≤ openings front + bound)
    (h' : ∀ front, front <+: rest →
      closings items + closings front ≤ openings items + openings front + bound) :
    ∀ front, front <+: items ++ rest → closings front ≤ openings front + bound := by
  rintro front ⟨back, hsplit⟩
  rcases List.append_eq_append_iff.mp hsplit with ⟨as, hitems, -⟩ | ⟨bs, rfl, hrest⟩
  · exact h front ⟨as, hitems.symm⟩
  · rw [closings_append, openings_append]
    exact h' bs ⟨back, hrest.symm⟩

namespace Balanced

variable {items rest : List Item}

theorem nil : Balanced [] := by
  refine ⟨rfl, fun front hfront => ?_⟩
  rw [List.prefix_nil.mp hfront]
  exact Nat.le_refl 0

theorem append (h : Balanced items) (h' : Balanced rest) : Balanced (items ++ rest) := by
  refine ⟨?_, @closings_le_of_append items rest 0 h.open_before fun front hfront => ?_⟩
  · rw [closings_append, openings_append, h.settled, h'.settled]
  · have := h.settled
    have := h'.open_before front hfront
    omega

/-- Items that are no tags of loops. -/
theorem cons {item : Item} (h : Balanced rest) (hopening : item.isOpening = false)
    (hclosing : item.isClosing = false) : Balanced (item :: rest) := by
  refine ⟨?_, fun front hfront => ?_⟩
  · rw [closings_cons, openings_cons, hopening, hclosing, h.settled]
  · rcases List.prefix_cons_iff.mp hfront with rfl | ⟨inner, rfl, hinner⟩
    · exact Nat.le_refl 0
    · rw [closings_cons, openings_cons, hopening, hclosing]
      exact h.open_before inner hinner

theorem loop (h : Balanced items) (header : LoopHeader) :
    Balanced (.opening header :: (items ++ [.closing])) := by
  have hsettled := h.settled
  have hclosed : ∀ front, front <+: items ++ [.closing] → closings front ≤ openings front + 1 := by
    refine closings_le_of_append (fun front hfront => ?_) fun front hfront => ?_
    · have := h.open_before front hfront
      omega
    · have hone : closings front ≤ 1 := hfront.sublist.countP_le
      omega
  refine ⟨?_, fun front hfront => ?_⟩
  · rw [closings_cons, openings_cons, closings_append, openings_append, hsettled]
    rfl
  · rcases List.prefix_cons_iff.mp hfront with rfl | ⟨inner, rfl, hinner⟩
    · exact Nat.le_refl 0
    · rw [closings_cons, openings_cons]
      exact hclosed inner hinner

end Balanced

/-! ## Items of a document -/

mutual

def Node.items : Node → List Item
  | .text content => [.text content]
  | .echo elements => [.echo elements]
  | .forLoop header body => .opening header :: (Node.itemsAll body ++ [.closing])

def Node.itemsAll : List Node → List Item
  | [] => []
  | node :: rest => node.items ++ Node.itemsAll rest

end

@[simp] theorem Node.itemsAll_append (nodes rest : List Node) :
    Node.itemsAll (nodes ++ rest) = Node.itemsAll nodes ++ Node.itemsAll rest := by
  induction nodes with
  | nil => rfl
  | cons node nodes ih => rw [List.cons_append, itemsAll, itemsAll, ih, List.append_assoc]

theorem Node.balanced_itemsAll (nodes : List Node) : Balanced (Node.itemsAll nodes) := by
  induction nodes using Node.listInduction with
  | nil => exact .nil
  | text content rest ih => exact ih.cons rfl rfl
  | echo elements rest ih => exact ih.cons rfl rfl
  | forLoop header body rest ihBody ihRest => exact (ihBody.loop header).append ihRest

/-! ## Reading items -/

def Frame.items (frame : Frame) : List Item :=
  Node.itemsAll frame.before.reverse ++ [.opening frame.header]

namespace Builder

/-- The items that have been read. -/
def items (builder : Builder) : List Item :=
  builder.enclosing.reverse.flatMap Frame.items ++ Node.itemsAll builder.siblings.reverse

def depth (builder : Builder) : Nat := builder.enclosing.length

/-- The parser behind the tokens of an item. -/
def take (builder : Builder) : Item → Except ParseError Builder
  | .text content => .ok (builder.append (.text content))
  | .echo elements => .ok (builder.append (.echo elements))
  | .opening header => .ok (builder.openLoop header)
  | .closing =>
      match builder.closeLoop? with
      | some closed => .ok closed
      | none => .error .unmatchedEnd

def takeAll (builder : Builder) (items : List Item) : Except ParseError Builder :=
  items.foldlM take builder

theorem takeAll_cons (builder : Builder) (item : Item) (items : List Item) :
    builder.takeAll (item :: items) = builder.take item >>= fun next => next.takeAll items :=
  List.foldlM_cons

theorem take_eq_ok {builder next : Builder} {item : Item} (h : builder.take item = .ok next) :
    next.depth + (if item.isClosing then 1 else 0) =
        builder.depth + (if item.isOpening then 1 else 0) ∧
      next.items = builder.items ++ [item] := by
  obtain ⟨siblings, enclosing⟩ := builder
  cases item with
  | text content | echo elements =>
      cases h
      exact ⟨rfl, by simp [items, append, Node.itemsAll, Node.items]⟩
  | opening header =>
      cases h
      exact ⟨rfl, by simp [items, openLoop, Frame.items, Node.itemsAll]⟩
  | closing =>
      cases enclosing with
      | nil => cases h
      | cons frame outer =>
          cases h
          exact ⟨rfl, by simp [items, Frame.items, Node.itemsAll, Node.items]⟩

theorem take_eq_error {builder : Builder} {item : Item} {e : ParseError}
    (h : builder.take item = .error e) :
    e = .unmatchedEnd ∧ item = .closing ∧ builder.depth = 0 := by
  obtain ⟨siblings, enclosing⟩ := builder
  cases item with
  | text content | echo elements | opening header => cases h
  | closing =>
      cases enclosing with
      | nil =>
          cases h
          exact ⟨rfl, rfl, rfl⟩
      | cons frame outer => cases h

theorem takeAll_eq_ok {builder final : Builder} {items : List Item}
    (h : builder.takeAll items = .ok final) :
    final.depth + closings items = builder.depth + openings items ∧
      final.items = builder.items ++ items ∧
      ∀ front, front <+: items → closings front ≤ openings front + builder.depth := by
  induction items generalizing builder with
  | nil =>
      cases h
      refine ⟨rfl, (List.append_nil _).symm, fun front hfront => ?_⟩
      rw [List.prefix_nil.mp hfront]
      exact Nat.zero_le _
  | cons item items ih =>
      rw [takeAll_cons] at h
      cases htake : builder.take item with
      | error e =>
          rw [htake] at h
          cases h
      | ok next =>
          rw [htake] at h
          obtain ⟨hdepth, hitems⟩ := take_eq_ok htake
          obtain ⟨hdepth', hitems', hfronts⟩ := ih h
          refine ⟨?_, ?_, fun front hfront => ?_⟩
          · rw [closings_cons, openings_cons]
            omega
          · rw [hitems', hitems, List.append_assoc, List.singleton_append]
          · rcases List.prefix_cons_iff.mp hfront with rfl | ⟨inner, rfl, hinner⟩
            · exact Nat.zero_le _
            · have := hfronts inner hinner
              rw [closings_cons, openings_cons]
              omega

theorem takeAll_eq_error {builder : Builder} {items : List Item} {e : ParseError}
    (h : builder.takeAll items = .error e) :
    e = .unmatchedEnd ∧
      ∃ front, front <+: items ∧ openings front + builder.depth < closings front := by
  induction items generalizing builder with
  | nil => cases h
  | cons item items ih =>
      rw [takeAll_cons] at h
      cases htake : builder.take item with
      | error e' =>
          rw [htake] at h
          cases h
          obtain ⟨rfl, rfl, hdepth⟩ := take_eq_error htake
          refine ⟨rfl, [.closing], ⟨items, rfl⟩, ?_⟩
          rw [hdepth]
          decide
      | ok next =>
          rw [htake] at h
          obtain ⟨hdepth, -⟩ := take_eq_ok htake
          obtain ⟨rfl, front, hfront, hlt⟩ := ih h
          refine ⟨rfl, item :: front, (List.prefix_cons_inj item).mpr hfront, ?_⟩
          rw [closings_cons, openings_cons]
          omega

end Builder

namespace Parser

theorem steps_item (builder : Builder) {item : Item} (h : item.isWellFormed = true) :
    (⟨builder, .outside⟩ : Parser).steps item.tokens =
      builder.take item >>= fun next => .ok ⟨next, .outside⟩ := by
  cases item with
  | text content => rfl
  | echo elements =>
      have hne : elements ≠ [] := by simpa [Item.isWellFormed] using h
      exact steps_eq_ok_iff.mpr (accepts_echo builder hne)
  | opening header => exact steps_eq_ok_iff.mpr (accepts_header builder (List.all_eq_true.mp h))
  | closing =>
      obtain ⟨siblings, enclosing⟩ := builder
      cases enclosing with
      | nil => rfl
      | cons frame outer => exact steps_eq_ok_iff.mpr (accepts_end siblings frame outer)

theorem steps_items (builder : Builder) {items : List Item}
    (h : ∀ item ∈ items, item.isWellFormed = true) :
    (⟨builder, .outside⟩ : Parser).steps (items.flatMap Item.tokens) =
      builder.takeAll items >>= fun next => .ok ⟨next, .outside⟩ := by
  induction items generalizing builder with
  | nil => rfl
  | cons item items ih =>
      rw [List.forall_mem_cons] at h
      rw [List.flatMap_cons, steps_append, steps_item builder h.1, Builder.takeAll_cons]
      cases builder.take item with
      | error e => rfl
      | ok next => exact ih next h.2

end Parser

theorem Document.parse_eq_takeAll {source : String} {items : List Item}
    (htokens : tokenize source = .ok (items.flatMap Item.tokens ++ [.eof]))
    (hitems : ∀ item ∈ items, item.isWellFormed = true) :
    Document.parse source =
      Builder.empty.takeAll items >>= fun builder => (⟨builder, .outside⟩ : Parser).finish := by
  rw [Document.parse_eq_steps, TokenStream.ofSource_of_tokenize htokens, Parser.steps_append,
    Parser.initial, Parser.steps_items _ hitems]
  cases Builder.empty.takeAll items <;> rfl

/-! ## Open loops -/

/--
The loops that are open behind some items, innermost first; a loop is known by the number of items
in front of its opening tag.  All that comes behind the opening tag of an open loop, and in front
of the opening tag of the next one, is balanced.
-/
inductive OpenLoops : List Item → List Nat → Prop
  | none {items : List Item} (h : Balanced items) : OpenLoops items []
  | inside {outer body : List Item} {loops : List Nat} (header : LoopHeader)
      (houter : OpenLoops outer loops) (hbody : Balanced body) :
      OpenLoops (outer ++ .opening header :: body) (outer.length :: loops)

namespace OpenLoops

variable {items : List Item} {loops loops' : List Nat}

theorem append (h : OpenLoops items loops) {rest : List Item} (hrest : Balanced rest) :
    OpenLoops (items ++ rest) loops := by
  cases h with
  | none h => exact .none (h.append hrest)
  | inside header houter hbody =>
      rw [List.append_assoc, List.cons_append]
      exact .inside header houter (hbody.append hrest)

theorem enter (h : OpenLoops items loops) (header : LoopHeader) :
    OpenLoops (items ++ [.opening header]) (items.length :: loops) :=
  .inside header h .nil

/-- Balanced items do not end in an open loop. -/
theorem not_balanced_inside {outer body : List Item} {header : LoopHeader} (hbody : Balanced body) :
    ¬ Balanced (outer ++ .opening header :: body) := by
  intro h
  have hprefix := h.open_before outer (List.prefix_append outer _)
  have hsettled := h.settled
  have hbodySettled := hbody.settled
  rw [closings_append, openings_append, closings_cons, openings_cons] at hsettled
  simp only [Item.isOpening, Item.isClosing, if_true, Bool.false_eq_true, if_false] at hsettled
  omega

theorem unique (h : OpenLoops items loops) (h' : OpenLoops items loops') : loops = loops' := by
  induction h generalizing loops' with
  | none h =>
      cases h' with
      | none => rfl
      | inside header _ hbody => exact absurd h (not_balanced_inside hbody)
  | @inside outer body loops header _ hbody ih =>
      generalize hitems : outer ++ Item.opening header :: body = items at h'
      cases h' with
      | none h =>
          rw [← hitems] at h
          exact absurd h (not_balanced_inside hbody)
      | @inside outer' body' loops' header' houter' hbody' =>
          -- the opening tag that comes first would be open in the body of the other one
          rcases List.append_eq_append_iff.mp hitems with ⟨as, rfl, has⟩ | ⟨bs, rfl, hbs⟩
          · cases as with
            | nil =>
                rw [List.append_nil] at houter' ⊢
                rw [ih houter']
            | cons item as =>
                cases has
                exact absurd hbody (not_balanced_inside hbody')
          · cases bs with
            | nil =>
                rw [List.append_nil] at ih ⊢
                rw [ih houter']
            | cons item bs =>
                cases hbs
                exact absurd hbody' (not_balanced_inside hbody)

end OpenLoops

/-! ## Places in a document -/

mutual

/--
The items of a node with the loops in whose bodies they stand, innermost first; the closing tag
stands in the body that it ends.  A loop is known by the position of its opening tag.
-/
def Node.places (loops : List Nat) (position : Nat) : Node → List (Item × List Nat)
  | .text content => [(.text content, loops)]
  | .echo elements => [(.echo elements, loops)]
  | .forLoop header body =>
      (.opening header, loops) ::
        (Node.placesAll (position :: loops) (position + 1) body ++
          [(.closing, position :: loops)])

def Node.placesAll (loops : List Nat) (position : Nat) : List Node → List (Item × List Nat)
  | [] => []
  | node :: rest =>
      node.places loops position ++ Node.placesAll loops (position + node.items.length) rest

end

def Document.places (d : Document) : List (Item × List Nat) := Node.placesAll [] 0 d.children

theorem Node.map_fst_placesAll (nodes : List Node) (loops : List Nat) (position : Nat) :
    (Node.placesAll loops position nodes).map Prod.fst = Node.itemsAll nodes := by
  induction nodes using Node.listInduction generalizing loops position with
  | nil => rfl
  | text content rest ih | echo elements rest ih =>
      simp [placesAll, places, itemsAll, items, ih]
  | forLoop header body rest ihBody ihRest =>
      simp [placesAll, places, itemsAll, items, ihBody, ihRest]

/-- Behind the given items, every item is listed with the loops that are open at its place. -/
def Placed : List Item → List (Item × List Nat) → Prop
  | _, [] => True
  | before, (item, loops) :: rest => OpenLoops before loops ∧ Placed (before ++ [item]) rest

theorem Placed.append {before : List Item} {places places' : List (Item × List Nat)}
    (h : Placed before places) (h' : Placed (before ++ places.map Prod.fst) places') :
    Placed before (places ++ places') := by
  induction places generalizing before with
  | nil => simpa using h'
  | cons place places ih =>
      refine ⟨h.1, ih h.2 ?_⟩
      simpa using h'

theorem Node.placed_placesAll (nodes : List Node) {before : List Item} {loops : List Nat}
    (h : OpenLoops before loops) : Placed before (Node.placesAll loops before.length nodes) := by
  induction nodes using Node.listInduction generalizing before loops with
  | nil => trivial
  | text content rest ih =>
      have hitem : Balanced [.text content] := Balanced.nil.cons rfl rfl
      have hrest := ih (h.append hitem)
      rw [List.length_append] at hrest
      exact ⟨h, hrest⟩
  | echo elements rest ih =>
      have hitem : Balanced [.echo elements] := Balanced.nil.cons rfl rfl
      have hrest := ih (h.append hitem)
      rw [List.length_append] at hrest
      exact ⟨h, hrest⟩
  | forLoop header body rest ihBody ihRest =>
      have hopen := h.enter header
      have hbody := ihBody hopen
      have hclosing := hopen.append (Node.balanced_itemsAll body)
      have hrest := ihRest (h.append ((Node.balanced_itemsAll body).loop header))
      rw [List.length_append] at hbody hrest
      have hloop : Placed before ((Node.forLoop header body).places loops before.length) := by
        refine ⟨h, hbody.append ⟨?_, trivial⟩⟩
        rwa [Node.map_fst_placesAll]
      refine hloop.append ?_
      rw [Node.places, List.map_cons, List.map_append, Node.map_fst_placesAll]
      exact hrest

theorem Placed.openLoops_of_split {before : List Item} {places : List (Item × List Nat)}
    (h : Placed before places) {front back : List (Item × List Nat)} {place : Item × List Nat}
    (hsplit : places = front ++ place :: back) :
    OpenLoops (before ++ front.map Prod.fst) place.2 := by
  induction front generalizing before places with
  | nil =>
      rw [hsplit] at h
      simpa using h.1
  | cons first front ih =>
      rw [hsplit] at h
      simpa using ih h.2 rfl

/-- Every closing tag stands in a loop. -/
theorem Node.loops_ne_nil_of_closing (nodes : List Node) {loops loops' : List Nat} {position : Nat}
    (h : (Item.closing, loops') ∈ Node.placesAll loops position nodes) : loops' ≠ [] := by
  induction nodes using Node.listInduction generalizing loops position with
  | nil => simp [Node.placesAll] at h
  | text content rest ih | echo elements rest ih =>
      simp only [Node.placesAll, Node.places, List.singleton_append, List.mem_cons, Prod.mk.injEq,
        reduceCtorEq, false_and, false_or] at h
      exact ih h
  | forLoop header body rest ihBody ihRest =>
      simp only [Node.placesAll, Node.places, List.cons_append, List.mem_cons, List.mem_append,
        Prod.mk.injEq, reduceCtorEq, false_and, false_or, List.not_mem_nil, or_false,
        true_and] at h
      rcases h with (h | rfl) | h
      · exact ihBody h
      · exact List.cons_ne_nil _ _
      · exact ihRest h

namespace Document

/-! ## Parsing -/

theorem items_of_finish {builder : Builder} {d : Document}
    (h : (⟨builder, .outside⟩ : Parser).finish = .ok d) :
    builder.depth = 0 ∧ builder.items = Node.itemsAll d.children := by
  obtain rfl : builder = ⟨d.children.reverse, []⟩ :=
    (Parser.mk.inj ((Parser.finish_eq_ok_iff rfl).mp h)).1
  exact ⟨rfl, by simp [Builder.items]⟩

theorem finish_of_depth (builder : Builder) :
    (builder.depth = 0 → ∃ d, (⟨builder, .outside⟩ : Parser).finish = .ok d) ∧
      (0 < builder.depth →
        (⟨builder, .outside⟩ : Parser).finish = .error (.unclosedFor builder.depth)) := by
  obtain ⟨siblings, enclosing⟩ := builder
  cases enclosing with
  | nil => exact ⟨fun _ => ⟨_, rfl⟩, fun h => absurd h (Nat.lt_irrefl 0)⟩
  | cons frame outer => exact ⟨fun h => absurd h (Nat.succ_ne_zero _), fun _ => rfl⟩

theorem exists_place {d : Document} {before after : List Item} {item : Item}
    (h : Node.itemsAll d.children = before ++ item :: after) :
    ∃ loops, d.places[before.length]? = some (item, loops) ∧ OpenLoops before loops := by
  rw [← Node.map_fst_placesAll d.children [] 0] at h
  obtain ⟨front, tail, hplaces, rfl, htail⟩ := List.map_eq_append_iff.mp h
  obtain ⟨⟨item, loops⟩, back, rfl, rfl, -⟩ := List.map_eq_cons_iff.mp htail
  have hplaced := Node.placed_placesAll d.children (.none .nil)
  refine ⟨loops, ?_, hplaced.openLoops_of_split hplaces⟩
  rw [places, hplaces]
  simp

theorem openLoops_iff_places {d : Document} {before after : List Item} {item : Item}
    {loops : List Nat} (h : Node.itemsAll d.children = before ++ item :: after) :
    OpenLoops before loops ↔ d.places[before.length]? = some (item, loops) := by
  obtain ⟨loops', hplace, hopen⟩ := exists_place h
  rw [hplace]
  constructor
  · intro hloops
    rw [hopen.unique hloops]
  · intro heq
    cases heq
    exact hopen

/-- A closing tag stands in the loop that was opened last among those that are open. -/
theorem exists_opening_of_closing {d : Document} {before after : List Item}
    (h : Node.itemsAll d.children = before ++ .closing :: after) :
    ∃ outer header body loops, before = outer ++ .opening header :: body ∧ Balanced body ∧
      d.places[before.length]? = some (.closing, outer.length :: loops) := by
  obtain ⟨loops, hplace, hopen⟩ := exists_place h
  have hne := Node.loops_ne_nil_of_closing d.children (List.mem_of_getElem? hplace)
  cases hopen with
  | none => contradiction
  | inside header _ hbody => exact ⟨_, header, _, _, rfl, hbody, hplace⟩

/--
Source in which every tag is well formed fails to parse if some prefix has more closing than
opening tags, or else if there are more opening than closing tags.  Otherwise it gives a document
with the same items in the same order, each in the bodies of the loops that are open at its place,
where a closing tag ends the loop that was opened last among those.
-/
theorem parse_items {source : String} {items : List Item}
    (htokens : tokenize source = .ok (items.flatMap Item.tokens ++ [.eof]))
    (hitems : ∀ item ∈ items, item.isWellFormed = true) :
    (Document.parse source = .error .unmatchedEnd ↔
      ∃ front, front <+: items ∧ openings front < closings front) ∧
      ((∀ front, front <+: items → closings front ≤ openings front) →
        (closings items < openings items →
          Document.parse source = .error (.unclosedFor (openings items - closings items))) ∧
        (openings items = closings items →
          ∃ d, Document.parse source = .ok d ∧ d.places.map Prod.fst = items ∧
            (∀ before item after loops, items = before ++ item :: after →
              (OpenLoops before loops ↔ d.places[before.length]? = some (item, loops))) ∧
            ∀ before after, items = before ++ .closing :: after →
              ∃ outer header body loops,
                before = outer ++ .opening header :: body ∧ Balanced body ∧
                  d.places[before.length]? = some (.closing, outer.length :: loops))) := by
  rw [parse_eq_takeAll htokens hitems]
  cases htake : Builder.empty.takeAll items with
  | error e =>
      obtain ⟨rfl, front, hfront, hlt⟩ := Builder.takeAll_eq_error htake
      refine ⟨⟨fun _ => ⟨front, hfront, hlt⟩, fun _ => rfl⟩, fun hfronts => ?_⟩
      exact absurd (hfronts front hfront) (Nat.not_le_of_lt hlt)
  | ok builder =>
      obtain ⟨hdepth, hread, hfronts⟩ := Builder.takeAll_eq_ok htake
      have hempty : Builder.empty.depth = 0 := rfl
      obtain ⟨hclosed, hopen⟩ := finish_of_depth builder
      rw [hempty, Nat.zero_add] at hdepth
      refine ⟨⟨fun h => ?_, ?_⟩, fun _ => ⟨fun hlt => ?_, fun heq => ?_⟩⟩
      · cases Parser.finish_eq_error h
      · rintro ⟨front, hfront, hlt⟩
        exact absurd (hfronts front hfront) (Nat.not_le_of_lt hlt)
      · have hcount : openings items - closings items = builder.depth := by omega
        rw [hcount]
        exact hopen (by omega)
      · obtain ⟨d, hd⟩ := hclosed (by omega)
        obtain rfl : items = Node.itemsAll d.children := hread.symm.trans (items_of_finish hd).2
        exact ⟨d, hd, Node.map_fst_placesAll _ _ _, fun _ _ _ _ => openLoops_iff_places,
          fun _ _ => exists_opening_of_closing⟩

/-- One loop in another one, with a text behind the inner one. -/
theorem parse_items_nested :
    let header : LoopHeader := ⟨"i", .int 1, .int 2, none⟩
    let items : List Item :=
      [.opening header, .opening header, .closing, .text "a", .closing]
    let source := "\x7b$FOR i 1 2$\x7d\x7b$for i 1 2$\x7d\x7b$END$\x7da\x7b$end$\x7d"
    tokenize source = .ok (items.flatMap Item.tokens ++ [.eof]) ∧
      (∀ item ∈ items, item.isWellFormed = true) ∧
      ∃ d, Document.parse source = .ok d ∧ d.places.map Prod.fst = items ∧
        d.places[3]? = some (.text "a", [0]) := by
  intro header items source
  have htokens : tokenize source = .ok (items.flatMap Item.tokens ++ [.eof]) := by decide +kernel
  have hitems : ∀ item ∈ items, item.isWellFormed = true := by decide
  have hinner : Balanced [.opening header, .closing] := Balanced.nil.loop header
  have htext : Balanced [.text "a"] := Balanced.nil.cons rfl rfl
  have hitemsBalanced : Balanced items := (hinner.append htext).loop header
  have hopen : OpenLoops [.opening header, .opening header, .closing] [0] :=
    .inside header (.none .nil) hinner
  obtain ⟨d, hd, hplaces, hloops, -⟩ :=
    ((parse_items htokens hitems).2 hitemsBalanced.open_before).2 rfl
  exact ⟨htokens, hitems, d, hd, hplaces, (hloops _ _ [.closing] _ rfl).mp hopen⟩

end Document

end TagTemplate
