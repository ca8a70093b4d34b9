import TemplateCompiler.Proofs.Readings
import TemplateCompiler.Proofs.Recoding

/-!
# Markup with other expressions

Every expression in a piece of markup is replaced. With the expressions of a recoding the attributes
are read as before, save for the expressions in them, and a refusal says the same
(`Reading.ofAttributes_mapExpr`).
-/

namespace TemplateCompiler

section

variable (f : Expr → Expr)

mutual

def Node.mapExpr : Node → Node
  | .element pos tag attributes children =>
    .element pos tag (mapAttributes attributes) (mapNodes children)
  | .text pos value => .text pos value
  | .placeholder pos e => .placeholder pos (e.map f)
  | .fragment pos children => .fragment pos (mapNodes children)
  | .literal pos value => .literal pos value
  | .attr a => .attr a.mapExpr
  | .template pos body => .template pos (mapNodes body)

def mapNodes : List Node → List Node
  | [] => []
  | node :: rest => node.mapExpr :: mapNodes rest

def Attribute.mapExpr : Attribute → Attribute
  | ⟨pos, tag, value⟩ => ⟨pos, tag, value.mapExpr⟩

def mapAttributes : List Attribute → List Attribute
  | [] => []
  | a :: rest => a.mapExpr :: mapAttributes rest

def AttributeValue.mapExpr : AttributeValue → AttributeValue
  | .bare => .bare
  | .node node => .node node.mapExpr
  | .constant value => .constant value

end

def Template.mapExpr (t : Template) : Template :=
  { t with body := mapNodes f t.body }

theorem mapNodes_eq_map (nodes : List Node) : mapNodes f nodes = nodes.map (Node.mapExpr f) := by
  induction nodes with
  | nil => rfl
  | cons node rest ih => rw [mapNodes, ih, List.map_cons]

theorem mapAttributes_eq_map (attributes : List Attribute) :
    mapAttributes f attributes = attributes.map (Attribute.mapExpr f) := by
  induction attributes with
  | nil => rfl
  | cons a rest ih => rw [mapAttributes, ih, List.map_cons]

theorem Attribute.pos_mapExpr (a : Attribute) : (a.mapExpr f).pos = a.pos := by
  cases a
  rfl

theorem Attribute.tag_mapExpr (a : Attribute) : (a.mapExpr f).tag = a.tag := by
  cases a
  rfl

theorem Node.pos_mapExpr (node : Node) : (node.mapExpr f).pos = node.pos := by
  cases node with
  | attr a => exact a.pos_mapExpr f
  | element | text | placeholder | fragment | literal | template => rfl

theorem Node.isBlank_mapExpr (node : Node) : (node.mapExpr f).isBlank = node.isBlank := by
  cases node <;> rfl

mutual

theorem Node.elements_mapExpr : ∀ node : Node,
    (node.mapExpr f).elements = node.elements.map (Node.mapExpr f)
  | .element .. => rfl
  | .fragment _ children => elementsOf_mapNodes children
  | .text .. | .placeholder .. | .literal .. | .attr _ | .template .. => rfl

theorem elementsOf_mapNodes : ∀ nodes : List Node,
    elementsOf (mapNodes f nodes) = (elementsOf nodes).map (Node.mapExpr f)
  | [] => rfl
  | node :: rest => by
    rw [mapNodes, elementsOf, Node.elements_mapExpr node, elementsOf_mapNodes rest, elementsOf,
      List.map_append]

end

mutual

theorem Node.mapExpr_id : ∀ node : Node, node.mapExpr id = node
  | .element _ _ attributes children => by
    rw [Node.mapExpr, mapAttributes_id attributes, mapNodes_id children]
  | .placeholder _ e => by rw [Node.mapExpr, Option.map_id_apply]
  | .fragment _ children => by rw [Node.mapExpr, mapNodes_id children]
  | .attr a => by rw [Node.mapExpr, Attribute.mapExpr_id a]
  | .template _ body => by rw [Node.mapExpr, mapNodes_id body]
  | .text .. | .literal .. => rfl

theorem mapNodes_id : ∀ nodes : List Node, mapNodes id nodes = nodes
  | [] => rfl
  | node :: rest => by rw [mapNodes, Node.mapExpr_id node, mapNodes_id rest]

theorem Attribute.mapExpr_id : ∀ a : Attribute, a.mapExpr id = a
  | ⟨_, _, value⟩ => by rw [Attribute.mapExpr, AttributeValue.mapExpr_id value]

theorem mapAttributes_id : ∀ attributes : List Attribute, mapAttributes id attributes = attributes
  | [] => rfl
  | a :: rest => by rw [mapAttributes, Attribute.mapExpr_id a, mapAttributes_id rest]

theorem AttributeValue.mapExpr_id : ∀ value : AttributeValue, value.mapExpr id = value
  | .node node => by rw [AttributeValue.mapExpr, Node.mapExpr_id node]
  | .bare | .constant _ => rfl

end

theorem Template.mapExpr_id (t : Template) : t.mapExpr id = t := by
  rw [mapExpr, mapNodes_id]

/-! ## What attributes are read as -/

def Content.mapExpr : Content → Content
  | .constant c => .constant c
  | .expression e => .expression (f e)

def Property.mapExpr (p : Property) : Property :=
  { p with content := p.content.mapExpr f }

def LoopPart.mapExpr : LoopPart → LoopPart
  | .each content => .each (content.mapExpr f)
  | part => part

def Reading.mapExpr : Reading → Reading
  | .iteration part => .iteration (part.mapExpr f)
  | .component content => .component (content.mapExpr f)
  | .condition content => .condition (content.mapExpr f)
  | .alternative content => .alternative (content.mapExpr f)
  | .slot name => .slot name
  | .property p => .property (p.mapExpr f)

@[simp]
theorem Content.text?_mapExpr (content : Content) : (content.mapExpr f).text? = content.text? := by
  cases content <;> rfl

namespace LoopPart

variable (parts : List LoopPart)

theorem statement?_mapExpr : statement? (parts.map (mapExpr f)) = statement? parts := by
  rw [statement?, List.findSome?_map, statement?]
  congr 1
  funext part
  cases part <;> rfl

theorem item?_mapExpr : item? (parts.map (mapExpr f)) = item? parts := by
  rw [item?, List.findSome?_map, item?]
  congr 1
  funext part
  cases part <;> rfl

theorem index?_mapExpr : index? (parts.map (mapExpr f)) = index? parts := by
  rw [index?, List.findSome?_map, index?]
  congr 1
  funext part
  cases part <;> rfl

theorem each?_mapExpr : each? (parts.map (mapExpr f)) = (each? parts).map (Content.mapExpr f) := by
  rw [each?, List.findSome?_map, each?, List.map_findSome?]
  congr 1
  funext part
  cases part <;> rfl

theorem iterable?_mapExpr :
    iterable? (parts.map (mapExpr f)) = (iterable? parts).map (Option.map (Content.mapExpr f)) := by
  unfold iterable?
  rw [statement?_mapExpr, each?_mapExpr, item?_mapExpr, index?_mapExpr, List.isEmpty_map,
    Option.isSome_map]
  split
  · rfl
  · split
    · split <;> rfl
    · cases each? parts with
      | none => rfl
      | some content => cases (item? parts).isSome <;> rfl

theorem parameters_mapExpr : parameters (parts.map (mapExpr f)) = parameters parts := by
  rw [parameters, statement?_mapExpr, item?_mapExpr, index?_mapExpr, parameters]

end LoopPart

namespace Reading

theorem isDirective_mapExpr (reading : Reading) :
    (reading.mapExpr f).isDirective = reading.isDirective := by
  cases reading <;> rfl

variable (readings : List Reading)

theorem loopParts_mapExpr :
    loopParts (readings.map (mapExpr f)) = (loopParts readings).map (LoopPart.mapExpr f) := by
  rw [loopParts, List.filterMap_map, loopParts, List.map_filterMap]
  congr 1
  funext reading
  cases reading <;> rfl

theorem component?_mapExpr :
    component? (readings.map (mapExpr f)) = (component? readings).map (Content.mapExpr f) := by
  rw [component?, List.findSome?_map, component?, List.map_findSome?]
  congr 1
  funext reading
  cases reading <;> rfl

theorem any_isDirective_mapExpr :
    (readings.map (mapExpr f)).any isDirective = readings.any isDirective := by
  rw [List.any_map]
  exact List.any_congr rfl fun reading => isDirective_mapExpr f reading

theorem slotOf_mapExpr : slotOf (readings.map (mapExpr f)) = slotOf readings := by
  unfold slotOf
  rw [List.filterMap_map]
  congr 3
  funext reading
  cases reading <;> rfl

theorem outletName_mapExpr : outletName (readings.map (mapExpr f)) = outletName readings := by
  unfold outletName
  rw [List.filterMap_map]
  congr 2
  funext reading
  cases reading with
  | property p =>
    obtain ⟨key, isEvent, directive, content⟩ := p
    simp only [Function.comp_apply, mapExpr, Property.mapExpr]
    split
    · rename_i heq
      obtain ⟨rfl, rfl, rfl, rfl⟩ : key = "name" ∧ isEvent = false ∧ directive = none ∧
        content.mapExpr f = _ := by simpa using heq
      exact congrArg Text.given (Content.text?_mapExpr f content)
    · rename_i hne
      split
      · rename_i heq
        cases heq
        exact absurd rfl (hne _)
      · rfl
  | iteration | component | condition | alternative | slot => rfl

theorem loopPart_mapExpr (config : Config) (m : Modifier) (content : Content) :
    loopPart config m (content.mapExpr f) = (loopPart config m content).map (.mapExpr f) := by
  have hname : parameterName config m (content.mapExpr f) = parameterName config m content := by
    rw [parameterName, Content.text?_mapExpr, parameterName]
  cases m with
  | statement =>
    simp only [loopPart, Content.text?_mapExpr]
    split
    · rfl
    · split
      · rfl
      · rename_i s _
        rcases checkParameters config s.parameters with problem | u <;> rfl
  | item | index =>
    simp only [loopPart, hname]
    rcases parameterName config _ content with problem | name <;> rfl
  | each | condition | alternative | component => rfl

theorem slotName_mapExpr (content : Content) : slotName (content.mapExpr f) = slotName content := by
  cases content <;> rfl

theorem ofRole_mapExpr (config : Config) (qualified : String) (role : Role) (content : Content) :
    ofRole config qualified role (content.mapExpr f) =
      (ofRole config qualified role content).map (mapExpr f) := by
  cases role with
  | modifier d m =>
    cases d with
    | iterate =>
      simp only [ofRole, loopPart_mapExpr]
      rcases loopPart config m content with problem | part <;> rfl
    | set | bind => cases m <;> rfl
  | event d key | directed d key => cases d <;> rfl
  | component | plain => rfl
  | slot =>
    simp only [ofRole, slotName_mapExpr]
    rcases slotName content with problem | name <;> rfl

end Reading

end

/-! ## With the expressions of a recoding -/

variable (R : Recoding)

mutual

theorem Node.display_mapExpr : ∀ node : Node, (node.mapExpr R.expr).display = node.display
  | .element _ _ attributes children => by
    rw [Node.mapExpr]
    unfold Node.display
    rw [displayAttributes_mapExpr attributes, displayNodes_mapExpr children]
  | .placeholder _ none => rfl
  | .placeholder _ (some e) => by
    rw [Node.mapExpr, Option.map_some]
    unfold Node.display
    rw [R.display]
  | .fragment _ children => by
    rw [Node.mapExpr]
    unfold Node.display
    rw [displayNodes_mapExpr children]
  | .attr a => displayAttribute_mapExpr a
  | .template _ body => by
    rw [Node.mapExpr]
    unfold Node.display
    rw [displayNodes_mapExpr body]
  | .text .. | .literal .. => rfl

theorem displayNodes_mapExpr : ∀ nodes : List Node,
    displayNodes (mapNodes R.expr nodes) = displayNodes nodes
  | [] => rfl
  | node :: rest => by
    rw [mapNodes, displayNodes, Node.display_mapExpr node, displayNodes_mapExpr rest, displayNodes]

theorem displayAttribute_mapExpr : ∀ a : Attribute,
    displayAttribute (a.mapExpr R.expr) = displayAttribute a
  | ⟨_, _, value⟩ => by
    rw [Attribute.mapExpr, displayAttribute, displayValue_mapExpr value, displayAttribute]

theorem displayAttributes_mapExpr : ∀ attributes : List Attribute,
    displayAttributes (mapAttributes R.expr attributes) = displayAttributes attributes
  | [] => rfl
  | a :: rest => by
    rw [mapAttributes, displayAttributes, displayAttribute_mapExpr a,
      displayAttributes_mapExpr rest, displayAttributes]

theorem displayValue_mapExpr : ∀ value : AttributeValue,
    displayValue (value.mapExpr R.expr) = displayValue value
  | .node node => Node.display_mapExpr node
  | .bare | .constant _ => rfl

end

theorem Node.shown_mapExpr (node : Node) : (node.mapExpr R.expr).shown = node.shown := by
  cases node with
  | element => rfl
  | text | placeholder | fragment | literal | attr | template => exact Node.display_mapExpr R _

theorem Content.ofAttribute_mapExpr (a : Attribute) :
    ofAttribute (a.mapExpr R.expr) = (ofAttribute a).map (mapExpr R.expr) := by
  obtain ⟨pos, tag, value⟩ := a
  cases value with
  | bare | constant => rfl
  | node node =>
    have hrefused : ∀ {shown shown' : String}, shown' = shown →
        (Except.error (.notAValue tag.qualified shown') : Except Problem Content) =
          (Except.error (.notAValue tag.qualified shown)).map (mapExpr R.expr) := by
      rintro _ _ rfl
      rfl
    cases node with
    | literal => rfl
    | placeholder _ e =>
      cases e with
      | none => rfl
      | some e =>
        have hcheck := R.check .value e
        simp only [Attribute.mapExpr, AttributeValue.mapExpr, Node.mapExpr, Option.map_some,
          ofAttribute, hcheck]
        rcases e.check .value with problem | u <;> rfl
    | element | text | fragment | attr | template => exact hrefused (Node.shown_mapExpr R _)

namespace Reading

theorem ofAttribute_mapExpr (config : Config) (taken : List Modifier) (a : Attribute) :
    ofAttribute config taken (a.mapExpr R.expr) =
      (ofAttribute config taken a).map fun read => (read.1.mapExpr R.expr, read.2) := by
  simp only [ofAttribute, Attribute.tag_mapExpr, Content.ofAttribute_mapExpr]
  rcases Role.ofTag a.tag with problem | role
  · rfl
  · rcases Content.ofAttribute a with problem | content
    · rfl
    · simp only [Except.map, bind, Except.bind, ofRole_mapExpr]
      rcases ofRole config a.tag.qualified role content with problem | reading
      · rfl
      · dsimp only
        split <;> rfl

theorem ofAttributes_mapExpr (config : Config) (taken : List Modifier)
    (attributes : List Attribute) :
    ofAttributes config taken (mapAttributes R.expr attributes) =
      (ofAttributes config taken attributes).map (List.map (mapExpr R.expr)) := by
  induction attributes generalizing taken with
  | nil => rfl
  | cons a rest ih =>
    rw [mapAttributes, ofAttributes, ofAttribute_mapExpr, Attribute.pos_mapExpr, ofAttributes]
    rcases ofAttribute config taken a with problem | ⟨reading, m⟩
    · rfl
    · simp only [Except.map, ih]
      rcases ofAttributes config (m.toList ++ taken) rest with problem | readings <;> rfl

end Reading

end TemplateCompiler
