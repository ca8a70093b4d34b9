/-!
# Lines of a source

A line ends at any line boundary of Unicode, at a vertical tab, a form feed or one of the three
outer information separators. A carriage return and a line feed in a row are one boundary, and a
boundary at the very end starts no further line.
-/

namespace TemplateCompiler.Text

def isBoundary (c : Char) : Bool :=
  let n := c.toNat
  (10 ≤ n && n ≤ 13) || (28 ≤ n && n ≤ 30) || n == 0x85 || n == 0x2028 || n == 0x2029

def boundedLines : List Char → List (List Char)
  | [] => []
  | '\r' :: '\n' :: rest => [] :: boundedLines rest
  | c :: rest =>
    if isBoundary c then [] :: boundedLines rest
    else match boundedLines rest with
      | [] => [[c]]
      | line :: more => (c :: line) :: more

def lines (s : String) : List String :=
  (boundedLines s.toList).map String.ofList

theorem mem_of_mem_boundedLines {c : Char} :
    ∀ {s line : List Char}, line ∈ boundedLines s → c ∈ line → c ∈ s ∧ isBoundary c = false := by
  intro s
  fun_induction boundedLines s with
  | case1 => simp
  | case2 rest ih =>
    intro line hline hc
    rcases List.mem_cons.1 hline with rfl | hline
    · simp at hc
    · exact (ih hline hc).imp_left fun h => List.mem_cons_of_mem _ (List.mem_cons_of_mem _ h)
  | case3 d rest _ hd ih =>
    intro line hline hc
    rcases List.mem_cons.1 hline with rfl | hline
    · simp at hc
    · exact (ih hline hc).imp_left (List.mem_cons_of_mem _)
  | case4 d rest _ hd hnil ih =>
    intro line hline hc
    obtain rfl := List.mem_singleton.1 hline
    obtain rfl := List.mem_singleton.1 hc
    exact ⟨List.mem_cons_self, by simpa using hd⟩
  | case5 d rest _ hd first more hmore ih =>
    intro line hline hc
    rw [hmore] at ih
    rcases List.mem_cons.1 hline with rfl | hline
    · rcases List.mem_cons.1 hc with rfl | hc
      · exact ⟨List.mem_cons_self, by simpa using hd⟩
      · exact (ih List.mem_cons_self hc).imp_left (List.mem_cons_of_mem _)
    · exact (ih (List.mem_cons_of_mem _ hline) hc).imp_left (List.mem_cons_of_mem _)

theorem mem_of_mem_lines {c : Char} {s line : String} (h : line ∈ lines s) (hc : c ∈ line.toList) :
    c ∈ s.toList ∧ isBoundary c = false := by
  obtain ⟨chars, hchars, rfl⟩ := List.mem_map.1 h
  rw [String.toList_ofList] at hc
  exact mem_of_mem_boundedLines hchars hc

end TemplateCompiler.Text
