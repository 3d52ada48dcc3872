/-!
# Lines of a text

Line feeds stand between the lines of a text and belong to none of them, so that a text has one line
more than it has line feeds, and joining the lines again gives the text.
-/

set_option autoImplicit false

namespace ObjectRuntime.Text

/-- The lines of the characters that follow a line begun already, which is given backward. -/
def linesFrom (begun : List Char) : List Char → List (List Char)
  | [] => [begun.reverse]
  | c :: rest =>
    if c = '\n' then begun.reverse :: linesFrom [] rest else linesFrom (c :: begun) rest

def lines (text : String) : List String := (linesFrom [] text.toList).map String.ofList

theorem linesFrom_of_not_mem (begun cs : List Char) (h : '\n' ∉ cs) :
    linesFrom begun cs = linesFrom (cs.reverse ++ begun) [] := by
  induction cs generalizing begun with
  | nil => rfl
  | cons c rest ih =>
    have hc : c ≠ '\n' := fun e => h (e ▸ List.mem_cons_self)
    have hrest : '\n' ∉ rest := fun m => h (List.mem_cons_of_mem _ m)
    simp only [linesFrom, hc, if_false, ih _ hrest, List.reverse_cons, List.append_assoc,
      List.singleton_append]

theorem linesFrom_single (cs : List Char) (h : '\n' ∉ cs) : linesFrom [] cs = [cs] := by
  rw [linesFrom_of_not_mem [] cs h]
  simp [linesFrom]

theorem linesFrom_ne_nil (begun cs : List Char) : linesFrom begun cs ≠ [] := by
  fun_induction linesFrom begun cs <;> simp_all

theorem intercalate_linesFrom (begun cs : List Char) :
    ['\n'].intercalate (linesFrom begun cs) = begun.reverse ++ cs := by
  fun_induction linesFrom begun cs with
  | case1 => simp
  | case2 begun rest ih =>
    obtain ⟨line, more, h⟩ := List.exists_cons_of_ne_nil (linesFrom_ne_nil [] rest)
    rw [h] at ih ⊢
    rw [List.intercalate_cons_cons, ih]
    simp
  | case3 begun c rest _ ih => simp [ih]

end ObjectRuntime.Text
