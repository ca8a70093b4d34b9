import Mathlib.Data.List.Perm.Basic
import TemplateCompiler.Proofs.Pieces

/-!
# The layout of markup

What a template lays out: pieces with what is inside of them, in the order of the markup. A template
puts what is in it in its own place, an else goes with the if in front of it, and what is passed to
a component is sorted by slot, each slot's in order. Nothing is left out by that, and nothing is
laid out twice (`Template.layout_perm`).
-/

namespace TemplateCompiler

variable {config : Config}

/-! ## Layouts -/

/-- A piece with what is inside of it: in order, on two branches, or by slot. -/
inductive Layout where
  | piece (p : Piece) (inside : List Layout)
  | choice (p : Piece) (body alternative : List Layout)
  | slotted (p : Piece) (contents : List (String × List Layout))

mutual

def Layout.pieces : Layout → List Piece
  | .piece p inside => p :: layoutPieces inside
  | .choice p body alternative => p :: (layoutPieces body ++ layoutPieces alternative)
  | .slotted p contents => p :: slotPieces contents

def layoutPieces : List Layout → List Piece
  | [] => []
  | l :: rest => l.pieces ++ layoutPieces rest

def slotPieces : List (String × List Layout) → List Piece
  | [] => []
  | (_, inside) :: rest => layoutPieces inside ++ slotPieces rest

end

@[simp]
theorem layoutPieces_append (ls ls' : List Layout) :
    layoutPieces (ls ++ ls') = layoutPieces ls ++ layoutPieces ls' := by
  induction ls with
  | nil => rfl
  | cons l rest ih => simp [layoutPieces, ih]

/-! ## Groups -/

/-- A list by key, in the order in which the keys first occur. -/
def groups {β : Type} (key : β → String) (l : List β) : List (String × List β) :=
  ((l.map key).eraseDups).map fun k => (k, l.filter fun b => key b == k)

theorem groups_cons {β : Type} (key : β → String) (b : β) (l : List β) :
    groups key (b :: l) = (key b, b :: l.filter fun c => key c == key b) ::
      groups key (l.filter fun c => !(key c == key b)) := by
  have hmap : (l.map key).filter (fun k => !(k == key b)) =
      (l.filter fun c => !(key c == key b)).map key := by
    rw [List.filter_map]
    rfl
  rw [groups, List.map_cons, List.eraseDups_cons, hmap, List.map_cons, groups]
  congr 1
  · simp
  · refine List.map_congr_left fun k hk => ?_
    obtain ⟨c, hc, rfl⟩ := List.mem_map.1 (List.mem_eraseDups.1 hk)
    have hne : key b ≠ key c := by simpa using Ne.symm (by simpa using (List.mem_filter.1 hc).2)
    rw [List.filter_cons_of_neg (by simpa using hne), List.filter_filter]
    congr 1
    refine List.filter_congr fun d _ => ?_
    by_cases hd : key d = key c
    · simp [hd, hne.symm]
    · simp [hd]

/-- Every member is in just one group. -/
theorem groups_perm {β : Type} (key : β → String) :
    ∀ l : List β, ((groups key l).flatMap Prod.snd).Perm l
  | [] => .refl _
  | b :: l => by
    rw [groups_cons, List.flatMap_cons]
    have hrest := groups_perm key (l.filter fun c => !(key c == key b))
    exact ((hrest.append_left _).trans (.cons b (List.filter_append_perm _ l)))
termination_by l => l.length
decreasing_by
  exact Nat.lt_succ_of_le (List.length_filter_le _ l)

/-! ## What a node contributes -/

/-- What is contributed to the children around, as one item. -/
structure Contributed where
  slot : Option String
  layouts : List Layout

namespace Contributed

def inSlot (c : Contributed) (slot : Option String) : Contributed :=
  { c with slot := c.slot.or slot }

def slotName (config : Config) (c : Contributed) : String :=
  c.slot.getD config.defaultSlotName

/-- Contributions in order, whatever their slots. -/
def row (cs : List Contributed) : List Layout :=
  cs.flatMap layouts

/-- Contributions by slot, each slot's in order. -/
def bySlot (config : Config) (cs : List Contributed) : List (String × List Layout) :=
  (groups (slotName config) cs).map fun group => (group.1, row group.2)

theorem layoutPieces_row (cs : List Contributed) :
    layoutPieces (row cs) = cs.flatMap fun c => layoutPieces c.layouts := by
  unfold row
  induction cs with
  | nil => rfl
  | cons c rest ih => rw [List.flatMap_cons, layoutPieces_append, ih, List.flatMap_cons]

theorem row_inSlot (cs : List Contributed) (slot : Option String) :
    row (cs.map fun c => c.inSlot slot) = row cs := by
  unfold row
  rw [List.flatMap_map]
  rfl

/-- Nothing is lost by sorting. -/
theorem slotPieces_bySlot (cs : List Contributed) :
    (slotPieces (bySlot config cs)).Perm (layoutPieces (row cs)) := by
  have hflat : ∀ gs : List (String × List Contributed),
      slotPieces (gs.map fun group => (group.1, row group.2)) =
        (gs.flatMap Prod.snd).flatMap fun c => layoutPieces c.layouts := by
    intro gs
    induction gs with
    | nil => rfl
    | cons group rest ih =>
      rw [List.map_cons, slotPieces, ih, layoutPieces_row, List.flatMap_cons, List.flatMap_append]
  rw [bySlot, hflat, layoutPieces_row]
  exact (groups_perm _ cs).flatMap_right _

end Contributed

/-- How a node is displayed: as it is, in the place of its parent's children, or as one of two
branches. -/
inductive DisplayForm where
  | fixed (layouts : List Layout)
  | spliced (contributed : List Contributed)
  | chosen (iteration : Option Piece) (condition : Piece) (layouts : List Layout)

structure Display where
  slot : Option String := none
  isAlternative : Bool := false
  form : DisplayForm

/-- What is repeated, if it is. -/
def repeatFor (iteration : Option Piece) (ls : List Layout) : List Layout :=
  match iteration with
  | none => ls
  | some p => [.piece p ls]

/-- A row of nodes: the branch it begins with, if that is an else, and what the nodes past that
contribute. -/
structure Laid where
  branch : Option (List Layout)
  contributed : List Contributed

/-- All of a row. An else that is the alternative of nothing is put where it stands. -/
def Laid.all (l : Laid) : List Contributed :=
  (l.branch.map fun ls => ⟨none, ls⟩).toList ++ l.contributed

namespace Display

/-- Whether an else can follow. -/
def takes (d : Display) : Bool :=
  match d.form with
  | .chosen .. => true
  | .fixed _ | .spliced _ => false

/-- What is displayed in front of a branch. -/
def layouts (d : Display) (branch : Option (List Layout)) : List Layout :=
  match d.form with
  | .fixed ls => ls
  | .spliced cs => Contributed.row cs
  | .chosen iteration condition ls =>
    repeatFor iteration [.choice condition ls (branch.getD [])]

/-- What a display leaves of the row behind it. -/
def remaining (d : Display) (l : Laid) : List Contributed :=
  if d.takes then l.contributed else l.all

/-- A display in front of what follows it. -/
def before (d : Display) (l : Laid) : Laid :=
  if d.isAlternative then ⟨some (d.layouts l.branch), d.remaining l⟩
  else match d.form with
    | .spliced cs => ⟨none, (cs.map fun c => c.inSlot d.slot) ++ d.remaining l⟩
    | _ => ⟨none, ⟨d.slot, d.layouts l.branch⟩ :: d.remaining l⟩

def contributions (ds : List Display) : List Contributed :=
  (ds.foldr before ⟨none, []⟩).all

/-- The pieces in a display alone. -/
def pieces (d : Display) : List Piece :=
  layoutPieces (d.layouts none)

end Display

section

variable (config)

/-- An element by itself, with what its children contribute. -/
def ElementKind.layout (place : Place) (node : Node) (inner : List Contributed)
    (kind : ElementKind) : List Layout :=
  (kind.piece? place node).toList.map fun p =>
    match kind with
    | .custom => .slotted p (Contributed.bySlot config inner)
    | _ => .piece p (Contributed.row inner)

def elementDisplay (place : Place) (node : Node) (inner : List Contributed) : Display :=
  let kind := node.kind config
  let readings := node.readings config
  let own := kind.layout config place node inner
  { slot := Reading.slotOf readings
    isAlternative := kind != .outlet && readings.any Reading.isAlternative
    form :=
      match kind, node.iteration? place with
      | .template, none => .spliced inner
      | .template, some iteration => .fixed [.piece iteration (Contributed.row inner)]
      | _, iteration =>
        match if kind.chooses then node.condition? config place else none with
        | none => .fixed (repeatFor iteration own)
        | some condition => .chosen iteration condition own }

mutual

/-- How a node is displayed that stands around a place behind some number of elements. -/
def Node.displays (around : Place) (before : Nat) : Node → List Display
  | .text pos value =>
    if (Text.collapse value).isEmpty then []
    else [{ form := .fixed [.piece (.content around (.text pos value)) []] }]
  | .placeholder _ none => []
  | .placeholder pos (some e) =>
    [{ form := .fixed [.piece (.content around (.placeholder pos (some e))) []] }]
  | .fragment _ children => displaysOf around before children
  | .element pos tag attributes children =>
    [elementDisplay config (around ++ [before]) (.element pos tag attributes children)
      (Display.contributions (displaysOf (around ++ [before]) 0 children))]
  | .literal .. | .attr _ | .template .. => []

def displaysOf (around : Place) (before : Nat) : List Node → List Display
  | [] => []
  | node :: rest =>
    node.displays around before ++ displaysOf around (before + node.elements.length) rest

end

/-- What the root of a template lays out. -/
def Template.layout (t : Template) : List Layout :=
  match t.root? with
  | some root =>
    (elementDisplay config [] root
      (Display.contributions (displaysOf config [] 0 root.children))).layouts none
  | none => []

end

/-! ## Elements by their kinds -/

section

variable {place : Place} {node : Node} {kind : ElementKind}

theorem elementDisplay_template (hkind : node.kind config = .template)
    (inner : List Contributed) :
    elementDisplay config place node inner =
      { slot := Reading.slotOf (node.readings config)
        isAlternative := (node.readings config).any Reading.isAlternative
        form :=
          match node.iteration? place with
          | none => .spliced inner
          | some iteration => .fixed [.piece iteration (Contributed.row inner)] } := by
  rw [elementDisplay, hkind]
  cases node.iteration? place <;> rfl

theorem elementDisplay_outlet (hkind : node.kind config = .outlet) (inner : List Contributed) :
    elementDisplay config place node inner =
      { slot := Reading.slotOf (node.readings config)
        form := .fixed (repeatFor (node.iteration? place)
          (ElementKind.outlet.layout config place node inner)) } := by
  rw [elementDisplay, hkind]
  rfl

/-- The display of what a condition can choose. -/
theorem elementDisplay_chooses (hkind : node.kind config = kind) (hchooses : kind.chooses)
    (inner : List Contributed) :
    elementDisplay config place node inner =
      let own := kind.layout config place node inner
      { slot := Reading.slotOf (node.readings config)
        isAlternative := (node.readings config).any Reading.isAlternative
        form :=
          match node.condition? config place with
          | none => .fixed (repeatFor (node.iteration? place) own)
          | some condition => .chosen (node.iteration? place) condition own } := by
  rw [elementDisplay, hkind]
  cases kind with
  | template | outlet => simp [ElementKind.chooses] at hchooses
  | virtual | dynamic | custom | plain => rfl

end

/-! ## Nothing is lost -/

theorem layoutPieces_repeatFor (iteration : Option Piece) (ls : List Layout) :
    layoutPieces (repeatFor iteration ls) = iteration.toList ++ layoutPieces ls := by
  cases iteration with
  | none => rfl
  | some => simp [repeatFor, layoutPieces, Layout.pieces]

theorem Laid.pieces_all (l : Laid) : layoutPieces (Contributed.row l.all) =
    layoutPieces (l.branch.getD []) ++ layoutPieces (Contributed.row l.contributed) := by
  obtain ⟨_ | ls, contributed⟩ := l <;> simp [all, Contributed.row, layoutPieces]

namespace Display

/-- A branch is displayed by what takes it, and else left where it stands. -/
theorem pieces_layouts (d : Display) (l : Laid) :
    layoutPieces (d.layouts l.branch) ++ layoutPieces (Contributed.row (d.remaining l)) =
      d.pieces ++ layoutPieces (Contributed.row l.all) := by
  rcases hform : d.form with ls | cs | ⟨repetition, test, ls⟩
  · simp [pieces, layouts, remaining, takes, hform]
  · simp [pieces, layouts, remaining, takes, hform]
  · simp [pieces, layouts, remaining, takes, hform, layoutPieces_repeatFor, layoutPieces,
      Layout.pieces, Laid.pieces_all]

theorem pieces_before (d : Display) (l : Laid) :
    layoutPieces (Contributed.row (d.before l).all) =
      d.pieces ++ layoutPieces (Contributed.row l.all) := by
  rw [← pieces_layouts]
  unfold before
  split
  · rw [Laid.pieces_all, Option.getD_some]
  · split
    · rename_i hform
      simp only [Laid.all, Option.map_none, Option.toList_none, List.nil_append, layouts, hform]
      rw [Contributed.row, List.flatMap_append, layoutPieces_append]
      congr 1
      rw [← Contributed.row, Contributed.row_inSlot]
    · simp [Laid.all, Contributed.row]

theorem pieces_contributions (ds : List Display) :
    layoutPieces (Contributed.row (contributions ds)) = ds.flatMap pieces := by
  unfold contributions
  induction ds with
  | nil => rfl
  | cons d rest ih => rw [List.foldr_cons, pieces_before, ih, List.flatMap_cons]

end Display

/-- What is no template has its own piece and those of its children. -/
theorem ElementKind.layout_perm (config : Config) (place : Place) (node : Node)
    (inner : List Contributed) {kind : ElementKind} (hkind : kind ≠ .template) :
    (layoutPieces (kind.layout config place node inner)).Perm
      ((kind.piece? place node).toList ++ layoutPieces (Contributed.row inner)) := by
  cases kind with
  | template => exact absurd rfl hkind
  | custom =>
    simpa [layout, piece?, layoutPieces, Layout.pieces] using Contributed.slotPieces_bySlot inner
  | outlet | virtual | dynamic | plain => simp [layout, piece?, layoutPieces, Layout.pieces]

theorem pieces_elementDisplay (place : Place) (node : Node) (inner : List Contributed) :
    (elementDisplay config place node inner).pieces.Perm
      (node.ownPieces config place ++ layoutPieces (Contributed.row inner)) := by
  have hown (hkind : node.kind config ≠ .template) :=
    ElementKind.layout_perm config place node inner hkind
  unfold Display.pieces Node.ownPieces
  cases hkind : node.kind config with
  | template =>
    rw [elementDisplay_template hkind]
    cases node.iteration? place with
    | none => exact .refl _
    | some =>
      simp [Display.layouts, layoutPieces, Layout.pieces, ElementKind.chooses, ElementKind.piece?]
  | outlet =>
    rw [hkind] at hown
    rw [elementDisplay_outlet hkind]
    simpa [Display.layouts, layoutPieces_repeatFor, ElementKind.chooses,
      List.perm_append_left_iff] using hown (by simp)
  | virtual | dynamic | custom | plain =>
    rw [hkind] at hown
    rw [elementDisplay_chooses hkind rfl]
    cases node.condition? config place with
    | none =>
      simpa [Display.layouts, layoutPieces_repeatFor, ElementKind.chooses,
        List.perm_append_left_iff] using hown (by simp)
    | some =>
      simpa [Display.layouts, layoutPieces_repeatFor, ElementKind.chooses, layoutPieces,
        Layout.pieces, List.perm_append_left_iff] using hown (by simp)

theorem Display.pieces_contributions_perm {ds : List Display} {ps : List Piece}
    (h : (ds.flatMap Display.pieces).Perm ps) (place : Place) (node : Node) :
    (elementDisplay config place node (contributions ds)).pieces.Perm
      (node.ownPieces config place ++ ps) := by
  refine (pieces_elementDisplay place node _).trans (.append_left _ ?_)
  rwa [pieces_contributions]

mutual

theorem Node.displays_perm : ∀ (node : Node) (around : Place) (before : Nat),
    ((node.displays config around before).flatMap Display.pieces).Perm
      (node.pieces config around before)
  | .text .., _, _ => by
    rw [Node.displays, Node.pieces]
    split <;> simp [Display.pieces, Display.layouts, layoutPieces, Layout.pieces]
  | .placeholder _ none, _, _ => .refl _
  | .placeholder _ (some _), _, _ => .refl _
  | .fragment _ children, around, before => displaysOf_perm children around before
  | .element _ _ _ children, around, before => by
    rw [Node.displays, Node.pieces, List.flatMap_singleton]
    exact Display.pieces_contributions_perm (displaysOf_perm children _ _) _ _
  | .literal .., _, _ => .refl _
  | .attr _, _, _ => .refl _
  | .template .., _, _ => .refl _

theorem displaysOf_perm : ∀ (nodes : List Node) (around : Place) (before : Nat),
    ((displaysOf config around before nodes).flatMap Display.pieces).Perm
      (piecesOf config around before nodes)
  | [], _, _ => .refl _
  | node :: rest, around, before => by
    rw [displaysOf, piecesOf, List.flatMap_append]
    exact (Node.displays_perm node _ _).append (displaysOf_perm rest _ _)

end

/-- A template lays out each of its pieces once. -/
theorem Template.layout_perm (t : Template) :
    (layoutPieces (t.layout config)).Perm (t.pieces config) := by
  unfold Template.layout Template.pieces
  rcases t.root? with _ | root
  · exact .refl _
  · exact Display.pieces_contributions_perm (displaysOf_perm root.children _ _) _ _

end TemplateCompiler
