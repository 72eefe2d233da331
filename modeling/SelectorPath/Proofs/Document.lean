import SelectorPath.Text.Basic

/-!
# Documents

A document is a finite ordered tree of elements. A node is its address: the
indices of the children on the way to it, innermost first, so that the tail of
an address is the parent. The document node, above the root element, has the
empty address.

## Main results

* `Document.mem_nodes_iff`: the nodes in document order are the addresses inside
  the document.
* `Document.mem_childNodes_iff`: the children of a node are the addresses one
  index longer.
-/

namespace SelectorPath

/-! ## Elements -/

/-- An element: its name, its attributes and its child elements. -/
inductive Element where
  | mk (name : Text) (attributes : List (Text × Text)) (children : List Element)

/-- The address of a node, innermost index first. -/
abbrev Node := List Nat

namespace Element

def name : Element → Text
  | mk name _ _ => name

def attributes : Element → List (Text × Text)
  | mk _ attributes _ => attributes

def children : Element → List Element
  | mk _ _ children => children

/-- The value of an attribute. -/
def attribute? (e : Element) (name : Text) : Option Text :=
  e.attributes.lookup name

/-- The element at an address below the given one. -/
def find? (e : Element) : Node → Option Element
  | [] => some e
  | i :: parent => (e.find? parent).bind fun p => p.children[i]?

/-- An address behind another one leads on from where that leads. -/
theorem find?_append (e : Element) (below above : Node) :
    e.find? (below ++ above) = (e.find? above).bind fun p => p.find? below := by
  induction below with
  | nil => simp [find?]
  | cons i parent ih =>
    rw [List.cons_append, find?, ih]
    cases e.find? above with
    | none => rfl
    | some p => rfl

mutual

/-- The addresses of an element, which is at `node` itself, and of all elements
below it, in document order. -/
def nodes (node : Node) : Element → List Node
  | mk _ _ children => node :: nodesFrom node 0 children

/-- The addresses of the children of `parent` from the given index on, and of
all elements below them. -/
def nodesFrom (parent : Node) (index : Nat) : List Element → List Node
  | [] => []
  | e :: rest => e.nodes (index :: parent) ++ nodesFrom parent (index + 1) rest

end

private theorem mem_nodesFrom_iff {m parent : Node} {index : Nat}
    {children : List Element}
    (h : ∀ e ∈ children, ∀ node, m ∈ e.nodes node ↔
      ∃ below, m = below ++ node ∧ (e.find? below).isSome) :
    m ∈ nodesFrom parent index children ↔
      ∃ i below e, children[i]? = some e ∧ m = below ++ (index + i) :: parent ∧
        (e.find? below).isSome := by
  induction children generalizing index with
  | nil => simp [nodesFrom]
  | cons e rest ih =>
    rw [List.forall_mem_cons] at h
    rw [nodesFrom, List.mem_append, h.1, ih h.2]
    constructor
    · rintro (⟨below, rfl, hbelow⟩ | ⟨i, below, e', hi, rfl, hbelow⟩)
      · exact ⟨0, below, e, rfl, rfl, hbelow⟩
      · exact ⟨i + 1, below, e', hi, by simp [Nat.add_assoc, Nat.add_comm 1],
          hbelow⟩
    · rintro ⟨i, below, e', hi, rfl, hbelow⟩
      cases i with
      | zero =>
        cases hi
        exact .inl ⟨below, rfl, hbelow⟩
      | succ i =>
        exact .inr ⟨i, below, e', hi, by simp [Nat.add_assoc, Nat.add_comm 1],
          hbelow⟩

/-- The addresses in an element are those at which something is found. -/
theorem mem_nodes_iff {m node : Node} (e : Element) :
    m ∈ e.nodes node ↔ ∃ below, m = below ++ node ∧ (e.find? below).isSome := by
  obtain ⟨name, attributes, children⟩ := e
  have hchildren : ∀ e ∈ children, ∀ node, m ∈ e.nodes node ↔
      ∃ below, m = below ++ node ∧ (e.find? below).isSome :=
        fun e he node => mem_nodes_iff e
  rw [nodes, List.mem_cons, mem_nodesFrom_iff hchildren]
  constructor
  · rintro (rfl | ⟨i, below, e, hi, rfl, hbelow⟩)
    · exact ⟨[], rfl, rfl⟩
    · refine ⟨below ++ [i], by simp, ?_⟩
      rw [find?_append]
      simpa [find?, Element.children, hi] using hbelow
  · rintro ⟨below, rfl, hbelow⟩
    rcases List.eq_nil_or_concat below with rfl | ⟨below, i, rfl⟩
    · exact .inl rfl
    · right
      rw [List.concat_eq_append, find?_append] at hbelow
      cases hi : children[i]? with
      | none => simp [find?, Element.children, hi] at hbelow
      | some e =>
        refine ⟨i, below, e, hi, by simp, ?_⟩
        simpa [find?, Element.children, hi] using hbelow
termination_by e
decreasing_by
  have hlt := List.sizeOf_lt_of_mem he
  simp only [mk.sizeOf_spec]
  omega

end Element

/-! ## Documents -/

/-- A document, with its root element. -/
structure Document where
  root : Element

namespace Document

/-- The document node, seen as an element without a name whose only child is the
root element. -/
def top (doc : Document) : Element :=
  .mk [] [] [doc.root]

/-- The element at an address. -/
def find? (doc : Document) (n : Node) : Option Element :=
  doc.top.find? n

/-- All nodes in document order. -/
def nodes (doc : Document) : List Node :=
  doc.top.nodes []

/-- The number of child elements of a node. -/
def childCount (doc : Document) (n : Node) : Nat :=
  ((doc.find? n).map fun e => e.children.length).getD 0

/-- The child elements of a node in document order. -/
def childNodes (doc : Document) (n : Node) : List Node :=
  (List.range (doc.childCount n)).map fun i => i :: n

private theorem find?_cons (doc : Document) (i : Nat) (parent : Node) :
    doc.find? (i :: parent) = (doc.find? parent).bind fun p => p.children[i]? :=
      rfl

/-- The addresses of a document are those at which an element is found. -/
theorem mem_nodes_iff {doc : Document} {n : Node} :
    n ∈ doc.nodes ↔ (doc.find? n).isSome := by
  rw [nodes, Element.mem_nodes_iff]
  simp [find?]

/-- A node has as many children as there are indices that lead on from it. -/
theorem isSome_find?_cons {doc : Document} {i : Nat} {parent : Node} :
    (doc.find? (i :: parent)).isSome ↔ i < doc.childCount parent := by
  rw [find?_cons, childCount]
  cases doc.find? parent with
  | none => simp
  | some p => simp

/-- The addresses of the children of an element. -/
theorem mem_childNodes_iff {doc : Document} {n parent : Node} :
    n ∈ doc.childNodes parent ↔
      ∃ i, n = i :: parent ∧ (doc.find? n).isSome := by
  simp only [childNodes, List.mem_map, List.mem_range]
  constructor
  · rintro ⟨i, hi, rfl⟩
    exact ⟨i, rfl, isSome_find?_cons.mpr hi⟩
  · rintro ⟨i, rfl, hi⟩
    exact ⟨i, isSome_find?_cons.mp hi, rfl⟩

/-- A node inside the document has its ancestors there too. -/
theorem isSome_find?_of_append {doc : Document} {below above : Node}
    (h : (doc.find? (below ++ above)).isSome) : (doc.find? above).isSome := by
  rw [find?, Element.find?_append] at h
  rw [find?]
  cases hp : doc.top.find? above with
  | none => simp [hp] at h
  | some p => rfl

end Document

end SelectorPath
