import RubyTree.Tree.Dump

/-!
# Reading a dump back

What a dump keeps of a tree is its skeleton: the kinds, the labels below the root, and the nodes in
order. `read?` reads it again, one character after the other, with the nodes that are still open on
a stack. It takes no notice of the indentation.

A label has to be a word of small letters and underscores. Another label could look like the rest
of a dump.

Results:

* `dump_skeleton`: a tree and its skeleton have the same dump.
* `read?_dump`: a dump is read as the skeleton of the tree.
-/

namespace RubyTree

/-! ## Skeletons -/

namespace Node

mutual

/-- The tree without its tokens. -/
def bare : Node → Node
  | ⟨kind, field, children⟩ => ⟨kind, field, bareChildren children⟩

/-- The children that are nodes, without the tokens below them. -/
def bareChildren : List (Child Node) → List (Child Node)
  | [] => []
  | .token _ :: children => bareChildren children
  | .node child :: children => .node child.bare :: bareChildren children

end

/-- The tree without its tokens and without a label at the root. -/
def skeleton (root : Node) : Node := root.bare.under .unlabeled

mutual

/-- The labels below a node. -/
def labels : Node → List String
  | ⟨_, _, children⟩ => labelsAmong children

/-- The labels of children and of what is below them. -/
def labelsAmong : List (Child Node) → List String
  | [] => []
  | .token _ :: children => labelsAmong children
  | .node child :: children => child.field.name?.toList ++ child.labels ++ labelsAmong children

end

/-- A small letter or an underscore. -/
def isLabelLetter (c : Char) : Bool := c.isLower || c == '_'

/-- Such characters, and at least one. -/
def IsWord (label : String) : Prop :=
  label.toList ≠ [] ∧ ∀ c ∈ label.toList, isLabelLetter c = true

instance (label : String) : Decidable (IsWord label) :=
  haveI := List.decidableBAll (isLabelLetter · = true) label.toList
  inferInstanceAs (Decidable (_ ∧ _))

/-- Every label below the root is a word. -/
def WellLabeled (root : Node) : Prop := ∀ label ∈ root.labels, IsWord label

@[simp] theorem field_bare (node : Node) : node.bare.field = node.field := by
  cases node
  rw [bare]

theorem under_field_bare (node : Node) : node.bare.under node.field = node.bare := by
  cases node
  rw [bare]
  rfl

mutual

theorem write_bare (indent : Nat) (rest : List Char) :
    (node : Node) → write indent rest node.bare = write indent rest node
  | ⟨kind, _, children⟩ => by
    rw [bare, write, write, writeChildren_bareChildren indent (')' :: rest) children]

theorem writeChildren_bareChildren (indent : Nat) (rest : List Char) :
    (children : List (Child Node)) →
      writeChildren indent rest (bareChildren children) = writeChildren indent rest children
  | [] => by rw [bareChildren]
  | .token _ :: children => by
    rw [bareChildren, writeChildren, writeChildren_bareChildren indent rest children]
  | .node child :: children => by
    rw [bareChildren, writeChildren, writeChildren, field_bare, write_bare,
      writeChildren_bareChildren indent rest children]

end

/-- What stands before the root does not depend on its label. -/
theorem write_under (indent : Nat) (rest : List Char) (field : Field) (node : Node) :
    write indent rest (node.under field) = write indent rest node := by
  cases node
  rw [under, write, write]

theorem dump_skeleton (root : Node) : root.skeleton.dump = root.dump := by
  rw [dump, skeleton, write_under, write_bare, dump]

end Node

/-! ## A reader of dumps -/

namespace Dump

/-- Where a reader stands. The nodes that are open come innermost first, each with the children it
    has so far. -/
inductive Reading where
  /-- The parenthesis of a node comes next, which has a label or none. -/
  | opening (field : Field) (above : List Node)
  /-- Inside the name of a kind. -/
  | kind (field : Field) (name : List Char) (above : List Node)
  /-- After a kind or a child: a new line comes next, or the end of the node. -/
  | inside (node : Node) (above : List Node)
  /-- In the indentation of a child. -/
  | margin (above : List Node)
  /-- Inside a label. -/
  | label (name : List Char) (above : List Node)
  /-- Behind the colon of a label. -/
  | colon (name : List Char) (above : List Node)
  /-- After the root. -/
  | done (root : Node)

namespace Reading

/-- Goes on after a node is complete. -/
def complete (node : Node) : List Node → Reading
  | [] => .done node
  | parent :: above => .inside { parent with children := parent.children ++ [.node node] } above

/-- The reading after one more character, unless that character cannot stand there. -/
def next? : Reading → Char → Option Reading
  | .opening field above, c => if c = '(' then some (.kind field [] above) else none
  | .kind field name above, c =>
    if c = '\n' ∨ c = ')' then
      (Kind.ofName? (String.ofList name)).map fun kind =>
        if c = '\n' then .margin (⟨kind, field, []⟩ :: above) else complete ⟨kind, field, []⟩ above
    else some (.kind field (name ++ [c]) above)
  | .inside node above, c =>
    if c = '\n' then some (.margin (node :: above))
    else if c = ')' then some (complete node above)
    else none
  | .margin above, c =>
    if c = ' ' then some (.margin above)
    else if c = '(' then some (.kind .unlabeled [] above)
    else some (.label [c] above)
  | .label name above, c =>
    if c = ':' then some (.colon name above) else some (.label (name ++ [c]) above)
  | .colon name above, c =>
    if c = ' ' then some (.opening (.named (String.ofList name)) above) else none
  | .done _, _ => none

/-- The tree that was read. -/
def root? : Reading → Option Node
  | .done root => some root
  | _ => none

/-- The reading after more characters. -/
def follow? (reading : Reading) (cs : List Char) : Option Reading := cs.foldlM next? reading

@[simp] theorem follow?_cons (reading : Reading) (c : Char) (cs : List Char) :
    reading.follow? (c :: cs) = (reading.next? c).bind (·.follow? cs) := rfl

end Reading

/-- Reads the dump of a tree. -/
def read? (cs : List Char) : Option Node :=
  ((Reading.opening .unlabeled []).follow? cs).bind Reading.root?

/-! ## Words -/

/-- The bytes of a text. The checks over all names look at them, for it takes long to compute the
    characters. -/
def bytes (text : String) : List UInt8 := text.toByteArray.data.toList

theorem bytes_eq (text : String) : bytes text = text.toList.flatMap String.utf8EncodeChar := by
  rw [← String.ofList_toList (s := text), bytes, String.toByteArray_ofList, List.utf8Encode,
    List.toList_data_toByteArray, String.ofList_toList]

theorem all_not_mem_bytes : (Kind.all.all fun kind =>
    (bytes kind.name).all fun byte => byte != 10 && byte != 41) = true := by
  decide +kernel

/-- No name of a kind holds a character that ends one. -/
theorem not_ends_of_mem_name {kind : Kind} {c : Char} (h : c ∈ kind.name.toList) :
    ¬ (c = '\n' ∨ c = ')') := by
  have hname := List.all_eq_true.mp all_not_mem_bytes kind (Kind.mem_all kind)
  have hencoded (byte : UInt8) (hbyte : byte ∈ String.utf8EncodeChar c) :
      (byte != 10 && byte != 41) = true := by
    refine List.all_eq_true.mp hname byte ?_
    rw [bytes_eq]
    exact List.mem_flatMap.mpr ⟨c, h, hbyte⟩
  rintro (rfl | rfl)
  · exact absurd (hencoded 10 (by decide)) (by decide)
  · exact absurd (hencoded 41 (by decide)) (by decide)

/-- The bytes of a text as the digits of a number. -/
def code (text : String) : Nat := (bytes text).foldl (fun n byte => 256 * n + byte.toNat) 0

theorem all_find?_code : (Kind.all.all fun kind =>
    decide (Kind.all.find? (fun other => Nat.beq (code other.name) (code kind.name)) =
      some kind)) = true := by
  decide +kernel

/-- No two kinds share a name. -/
theorem ofName?_name (kind : Kind) : Kind.ofName? kind.name = some kind := by
  have hfind := List.all_eq_true.mp all_find?_code kind (Kind.mem_all kind)
  obtain ⟨-, before, after, hall, hbefore⟩ :=
    List.find?_eq_some_iff_append.mp (of_decide_eq_true hfind)
  refine List.find?_eq_some_iff_append.mpr ⟨beq_self_eq_true _, before, after, hall, ?_⟩
  intro other hother
  have hcode := hbefore other hother
  rw [Bool.not_eq_true', beq_eq_false_iff_ne]
  intro hname
  rw [hname, Nat.beq_refl] at hcode
  cases hcode

namespace Reading

theorem follow?_kind (field : Field) (above : List Node) {word : List Char}
    (h : ∀ c ∈ word, ¬ (c = '\n' ∨ c = ')')) (front rest : List Char) :
    (kind field front above).follow? (word ++ rest) =
      (kind field (front ++ word) above).follow? rest := by
  induction word generalizing front with
  | nil => simp
  | cons c word ih =>
    have hnext : (kind field front above).next? c = some (kind field (front ++ [c]) above) :=
      if_neg (h c List.mem_cons_self)
    rw [List.cons_append, follow?_cons, hnext, Option.bind_some,
      ih (fun d hd => h d (List.mem_cons_of_mem c hd)), List.append_assoc]
    rfl

/-- At the end of its name a kind is like a node without children yet. -/
theorem follow?_name (kind : Kind) (field : Field) (above : List Node) {c : Char}
    (h : c = '\n' ∨ c = ')') (rest : List Char) :
    (Reading.kind field [] above).follow? (kind.name.toList ++ c :: rest) =
      (inside ⟨kind, field, []⟩ above).follow? (c :: rest) := by
  rw [follow?_kind field above (fun d hd => not_ends_of_mem_name hd), List.nil_append,
    follow?_cons, follow?_cons]
  rcases h with rfl | rfl
  · simp [next?, ofName?_name, String.ofList_toList]
  · simp [next?, ofName?_name, String.ofList_toList]

theorem ne_colon_of_isLabelLetter {c : Char} (h : Node.isLabelLetter c = true) : c ≠ ':' := by
  rintro rfl
  exact absurd h (by decide)

theorem follow?_label (above : List Node) {word : List Char}
    (h : ∀ c ∈ word, Node.isLabelLetter c = true) (front rest : List Char) :
    (label front above).follow? (word ++ rest) = (label (front ++ word) above).follow? rest := by
  induction word generalizing front with
  | nil => simp
  | cons c word ih =>
    have hnext : (label front above).next? c = some (label (front ++ [c]) above) :=
      if_neg (ne_colon_of_isLabelLetter (h c List.mem_cons_self))
    rw [List.cons_append, follow?_cons, hnext, Option.bind_some,
      ih (fun d hd => h d (List.mem_cons_of_mem c hd)), List.append_assoc]
    rfl

theorem follow?_indentation (above : List Node) (indent : Nat) (rest : List Char) :
    (margin above).follow? (List.replicate indent ' ' ++ rest) = (margin above).follow? rest := by
  induction indent with
  | zero => rfl
  | succ indent ih => exact ih

/-- A label is read to its end. -/
theorem follow?_margin_of_isWord {name : String} (h : Node.IsWord name) (above : List Node)
    (rest : List Char) :
    (margin above).follow? (name.toList ++ ':' :: ' ' :: rest) =
      (opening (.named name) above).follow? rest := by
  obtain ⟨hne, hletters⟩ := h
  obtain ⟨c, word, hname⟩ := List.exists_cons_of_ne_nil hne
  rw [hname] at hletters
  have hletter := hletters c List.mem_cons_self
  have hnext : (margin above).next? c = some (label [c] above) := by
    have hspace : c ≠ ' ' := by
      rintro rfl
      exact absurd hletter (by decide)
    have hopen : c ≠ '(' := by
      rintro rfl
      exact absurd hletter (by decide)
    exact (if_neg hspace).trans (if_neg hopen)
  rw [hname, List.cons_append, follow?_cons, hnext, Option.bind_some,
    follow?_label above (fun d hd => hletters d (List.mem_cons_of_mem c hd))]
  simp [next?, ← hname, String.ofList_toList]

/-- What stands before a child tells its label. -/
theorem follow?_inside_margin {field : Field} (h : ∀ name ∈ field.name?, Node.IsWord name)
    (indent : Nat) (node : Node) (above : List Node) (rest : List Char) :
    (inside node above).follow? (Node.margin indent field ++ '(' :: rest) =
      (opening field (node :: above)).follow? ('(' :: rest) := by
  have hline : (inside node above).next? '\n' = some (margin (node :: above)) := rfl
  unfold Node.margin
  rw [List.cons_append, List.cons_append, follow?_cons, hline, Option.bind_some, List.append_assoc,
    follow?_indentation]
  cases field with
  | unlabeled => rfl
  | named name =>
    rw [List.append_assoc]
    exact follow?_margin_of_isWord (h name rfl) (node :: above) ('(' :: rest)

end Reading

/-! ## Reading what was written -/

open Reading (opening inside complete follow?_cons)

/-- What a node is written as begins with its parenthesis. -/
theorem exists_write (indent : Nat) (rest : List Char) (node : Node) :
    ∃ more, node.write indent rest = '(' :: more := by
  cases node
  exact ⟨_, by rw [Node.write, List.cons_append]⟩

/-- What follows the name of a kind ends that name. -/
theorem exists_writeChildren (indent : Nat) (rest : List Char) (children : List (Child Node)) :
    ∃ c more, Node.writeChildren indent (')' :: rest) children = c :: more ∧
      (c = '\n' ∨ c = ')') := by
  induction children with
  | nil => exact ⟨_, _, rfl, .inr rfl⟩
  | cons child children ih =>
    cases child with
    | token text => rwa [Node.writeChildren]
    | node child =>
      rw [Node.writeChildren]
      exact ⟨_, _, rfl, .inl rfl⟩

mutual

theorem follow?_write (indent : Nat) (rest : List Char) (field : Field) (above : List Node) :
    (node : Node) → node.WellLabeled →
      (opening field above).follow? (node.write indent rest) =
        (complete (node.bare.under field) above).follow? rest
  | ⟨kind, _, children⟩, h => by
    obtain ⟨c, more, hmore, hends⟩ := exists_writeChildren indent rest children
    have hopen : (opening field above).next? '(' = some (.kind field [] above) := rfl
    rw [Node.write, List.cons_append, follow?_cons, hopen, Option.bind_some, hmore,
      Reading.follow?_name kind field above hends, ← hmore,
      follow?_writeChildren indent rest ⟨kind, field, []⟩ above children h]
    rfl

theorem follow?_writeChildren (indent : Nat) (rest : List Char) (node : Node)
    (above : List Node) :
    (children : List (Child Node)) → (∀ label ∈ Node.labelsAmong children, Node.IsWord label) →
      (inside node above).follow? (Node.writeChildren indent (')' :: rest) children) =
        (complete { node with children := node.children ++ Node.bareChildren children }
          above).follow? rest
  | [], _ => by
    have hclose : (inside node above).next? ')' = some (complete node above) := rfl
    cases node
    rw [Node.writeChildren, Node.bareChildren, List.append_nil, follow?_cons, hclose]
    rfl
  | .token _ :: children, h => by
    rw [Node.writeChildren, Node.bareChildren]
    exact follow?_writeChildren indent rest node above children h
  | .node child :: children, h => by
    rw [Node.labelsAmong] at h
    have hfield : ∀ name ∈ child.field.name?, Node.IsWord name := fun name hname =>
      h name (List.mem_append_left _ (List.mem_append_left _ (Option.mem_toList.mpr hname)))
    have hchild : child.WellLabeled := fun name hname =>
      h name (List.mem_append_left _ (List.mem_append_right _ hname))
    have hchildren : ∀ name ∈ Node.labelsAmong children, Node.IsWord name := fun name hname =>
      h name (List.mem_append_right _ hname)
    obtain ⟨more, hmore⟩ := exists_write (indent + 2)
      (Node.writeChildren indent (')' :: rest) children) child
    rw [Node.writeChildren, hmore, Reading.follow?_inside_margin hfield, ← hmore,
      follow?_write (indent + 2) _ child.field (node :: above) child hchild, complete,
      follow?_writeChildren indent rest _ above children hchildren, Node.bareChildren,
      List.append_assoc, Node.under_field_bare]
    rfl

end

/-- A dump is read as the skeleton of the tree. -/
theorem read?_dump {root : Node} (h : root.WellLabeled) :
    read? root.dump.toList = some root.skeleton := by
  rw [read?, Node.dump, String.toList_ofList, follow?_write 2 [] .unlabeled [] root h]
  rfl

end Dump

end RubyTree
