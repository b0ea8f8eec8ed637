import KnittingPattern.Pattern.Description
import Mathlib.Data.List.Chain
import Mathlib.Data.List.DropRight

/-! # The lines of a description

The lines of a description are what its comments say, in a normal form of blank lines: none begins
them, no two follow each other, and one ends them.  Between two lines that say something stands a
blank one if a blank comment does.  Lines in this form stay as they are.  Main theorem:
`Description.lines_normalForm`. -/

namespace KnittingPattern
namespace Description

/-- What is left of a text without one mark before it and without the blanks at both ends. -/
structure IsBody (text body : String) : Prop where
  cut : ∃ mark left right, text.toList = mark ++ (left ++ body.toList ++ right) ∧
    (mark = [';'] ∨ mark = [] ∧ text.toList.head? ≠ some ';') ∧
    ∀ c ∈ left ++ right, isMargin c
  head : ∀ c ∈ body.toList.head?, ¬isMargin c
  last : ∀ c ∈ body.toList.getLast?, ¬isMargin c

theorem trim_eq (cs : List Char) : trim cs = (cs.dropWhile isMargin).rdropWhile isMargin := rfl

theorem exists_trim (cs : List Char) :
    ∃ left right, cs = left ++ trim cs ++ right ∧ ∀ c ∈ left ++ right, isMargin c := by
  refine ⟨cs.takeWhile isMargin, (cs.dropWhile isMargin).rtakeWhile isMargin, ?_, ?_⟩
  · rw [trim_eq, List.append_assoc, List.rdropWhile_append_rtakeWhile,
      List.takeWhile_append_dropWhile]
  · rw [List.forall_mem_append]
    exact ⟨fun c => List.mem_takeWhile_imp, fun c => List.mem_rtakeWhile_imp⟩

theorem not_isMargin_last (cs : List Char) : ∀ c ∈ (trim cs).getLast?, ¬isMargin c := by
  intro c hc
  have hne : trim cs ≠ [] := by
    intro h
    rw [h] at hc
    cases hc
  rw [List.getLast?_eq_getLast_of_ne_nil hne] at hc
  cases hc
  exact List.rdropWhile_last_not isMargin _ hne

theorem not_isMargin_head (cs : List Char) : ∀ c ∈ (trim cs).head?, ¬isMargin c := by
  intro c hc
  obtain ⟨cs', hcs⟩ := List.head?_eq_some_iff.mp hc
  obtain ⟨rest, hrest⟩ : trim cs <+: cs.dropWhile isMargin := List.rdropWhile_prefix isMargin _
  have hhead := List.head?_dropWhile_not isMargin cs
  rw [← hrest, hcs] at hhead
  simpa using hhead

/-- A text with nothing to drop at its ends stays. -/
theorem trim_of_not_isMargin {cs : List Char} (hhead : ∀ c ∈ cs.head?, ¬isMargin c)
    (hlast : ∀ c ∈ cs.getLast?, ¬isMargin c) : trim cs = cs := by
  have hleft : cs.dropWhile isMargin = cs := by
    cases cs with
    | nil => rfl
    | cons c cs => exact List.dropWhile_cons_of_neg (hhead c rfl)
  rw [trim_eq, hleft, List.rdropWhile_eq_self_iff]
  exact fun hne => hlast _ (List.getLast?_eq_getLast_of_ne_nil hne)

theorem body_of_mark {text : String} {cs : List Char} (h : text.toList = ';' :: cs) :
    body text = String.ofList (trim cs) := by
  simp only [body, h]

theorem body_of_not_mark {text : String} (h : text.toList.head? ≠ some ';') :
    body text = String.ofList (trim text.toList) := by
  unfold body
  split
  · rename_i cs hcs
    rw [hcs] at h
    exact absurd rfl h
  · rfl

theorem isBody_body (text : String) : IsBody text (body text) := by
  have hends (cs : List Char) : (∀ c ∈ (String.ofList (trim cs)).toList.head?, ¬isMargin c) ∧
      ∀ c ∈ (String.ofList (trim cs)).toList.getLast?, ¬isMargin c := by
    rw [String.toList_ofList]
    exact ⟨not_isMargin_head cs, not_isMargin_last cs⟩
  by_cases hmark : text.toList.head? = some ';'
  · obtain ⟨cs, hcs⟩ := List.head?_eq_some_iff.mp hmark
    obtain ⟨left, right, hcut, hmargin⟩ := exists_trim cs
    rw [body_of_mark hcs]
    refine ⟨⟨[';'], left, right, ?_, .inl rfl, hmargin⟩, (hends cs).1, (hends cs).2⟩
    rw [String.toList_ofList, ← hcut, hcs, List.singleton_append]
  · obtain ⟨left, right, hcut, hmargin⟩ := exists_trim text.toList
    rw [body_of_not_mark hmark]
    refine ⟨⟨[], left, right, ?_, .inr ⟨rfl, hmark⟩, hmargin⟩, (hends _).1, (hends _).2⟩
    rw [String.toList_ofList, ← hcut, List.nil_append]

/-- What a comment says says the same with a mark in front. -/
theorem body_marked {text s : String} (h : IsBody text s) : body (";" ++ s) = s := by
  have hmark : (";" ++ s).toList = ';' :: s.toList := by simp
  rw [body_of_mark hmark, trim_of_not_isMargin h.head h.last, String.ofList_toList]

/-- What the comments of a description say. -/
def bodies (d : Description) : List String := d.comments.map fun c => body c.text

theorem lines_eq (d : Description) : d.lines = collapse true d.bodies := rfl

/-- The lines of a text that are not blank. -/
def filled (ls : List String) : List String := ls.filter fun l => l ≠ ""

/-- Lines in normal form, `blank` as for `collapse`. -/
inductive Tidy : Bool → List String → Prop
  | nil : Tidy true []
  | blank {ls : List String} (h : Tidy true ls) : Tidy false ("" :: ls)
  | line {b : Bool} {l : String} {ls : List String} (hl : l ≠ "") (h : Tidy false ls) :
    Tidy b (l :: ls)

variable {b : Bool} {l : String} {ls : List String}

theorem collapse_blank (ls : List String) :
    collapse b ("" :: ls) = if b then collapse true ls else "" :: collapse true ls := by
  rw [collapse, if_pos rfl]

theorem collapse_line (hl : l ≠ "") (ls : List String) :
    collapse b (l :: ls) = l :: collapse false ls := by
  rw [collapse, if_neg hl]

theorem tidy_collapse (b : Bool) (ls : List String) : Tidy b (collapse b ls) := by
  induction ls generalizing b with
  | nil =>
    cases b with
    | true => exact .nil
    | false => exact .blank .nil
  | cons l ls ih =>
    by_cases hl : l = ""
    · subst hl
      rw [collapse_blank]
      cases b with
      | true => exact ih true
      | false => exact .blank (ih true)
    · rw [collapse_line hl]
      exact .line hl (ih false)

theorem collapse_of_tidy (h : Tidy b ls) : collapse b ls = ls := by
  induction h with
  | nil => rfl
  | blank h ih => rw [collapse_blank, ih]; rfl
  | line hl h ih => rw [collapse_line hl, ih]

theorem filled_blank (ls : List String) : filled ("" :: ls) = filled ls := rfl

theorem filled_line (hl : l ≠ "") (ls : List String) : filled (l :: ls) = l :: filled ls :=
  List.filter_cons_of_pos (decide_eq_true hl)

theorem filled_collapse (b : Bool) (ls : List String) : filled (collapse b ls) = filled ls := by
  induction ls generalizing b with
  | nil => cases b <;> rfl
  | cons l ls ih =>
    by_cases hl : l = ""
    · subst hl
      rw [collapse_blank, filled_blank]
      cases b with
      | true => exact ih true
      | false => exact (filled_blank _).trans (ih true)
    · rw [collapse_line hl, filled_line hl, filled_line hl, ih]

theorem Tidy.head (h : Tidy true ls) : ∀ l ∈ ls.head?, l ≠ "" := by
  cases h with
  | nil => simp
  | line hl h => simpa using hl

theorem Tidy.isChain (h : Tidy b ls) : ls.IsChain fun l m => l ≠ "" ∨ m ≠ "" := by
  induction h with
  | nil => exact .nil
  | blank h ih => exact List.isChain_cons.mpr ⟨fun m hm => .inr (h.head m hm), ih⟩
  | line hl h ih => exact List.isChain_cons.mpr ⟨fun m hm => .inl hl, ih⟩

/-- Where lines in normal form are not empty, a blank line ends them behind one that is not. -/
theorem Tidy.ends (h : Tidy b ls) : b = true ∧ ls = [] ∨ b = false ∧ ls = [""] ∨
    ∃ ls' l, l ≠ "" ∧ ls = ls' ++ [l, ""] := by
  induction h with
  | nil => exact .inl ⟨rfl, rfl⟩
  | blank h ih =>
    obtain ⟨-, rfl⟩ | ⟨hb, -⟩ | ⟨ls', l, hl, rfl⟩ := ih
    · exact .inr (.inl ⟨rfl, rfl⟩)
    · cases hb
    · exact .inr (.inr ⟨"" :: ls', l, hl, rfl⟩)
  | @line b l ls hl h ih =>
    obtain ⟨hb, -⟩ | ⟨-, rfl⟩ | ⟨ls', l', hl', rfl⟩ := ih
    · cases hb
    · exact .inr (.inr ⟨[], l, hl, rfl⟩)
    · exact .inr (.inr ⟨l :: ls', l', hl', rfl⟩)

/-- What stands before a line that is not blank keeps its lines. -/
theorem exists_collapse_append (b : Bool) (before : List String) (hl : l ≠ "") (ls : List String) :
    ∃ before', collapse b (before ++ l :: ls) = before' ++ l :: collapse false ls ∧
      filled before' = filled before := by
  induction before generalizing b with
  | nil => exact ⟨[], collapse_line hl ls, rfl⟩
  | cons m before ih =>
    by_cases hm : m = ""
    · subst hm
      obtain ⟨before', hcollapse, hfilled⟩ := ih true
      rw [List.cons_append, collapse_blank, hcollapse]
      cases b with
      | true => exact ⟨before', rfl, hfilled⟩
      | false => exact ⟨"" :: before', rfl, hfilled⟩
    · obtain ⟨before', hcollapse, hfilled⟩ := ih false
      refine ⟨m :: before', ?_, ?_⟩
      · rw [List.cons_append, collapse_line hm, hcollapse, List.cons_append]
      · rw [filled_line hm, filled_line hm, hfilled]

/-- Any number of blank lines between two others are one. -/
theorem collapse_between {between : List String} (hb : ∀ m ∈ between, m = "") (hl : l ≠ "")
    (ls : List String) : collapse false (between ++ l :: ls) =
      (if between = [] then [] else [""]) ++ l :: collapse false ls := by
  have hdropped (between : List String) (hb : ∀ m ∈ between, m = "") :
      collapse true (between ++ l :: ls) = l :: collapse false ls := by
    induction between with
    | nil => exact collapse_line hl ls
    | cons m between ih =>
      obtain ⟨rfl, hrest⟩ := List.forall_mem_cons.mp hb
      exact (collapse_blank _).trans (ih hrest)
  cases between with
  | nil => exact collapse_line hl ls
  | cons m between =>
    obtain ⟨rfl, hrest⟩ := List.forall_mem_cons.mp hb
    rw [List.cons_append, collapse_blank, if_neg Bool.false_ne_true, hdropped between hrest]
    rfl

/-- The description whose comments are these lines with a mark in front, wherever they stand. -/
def marked (place : Nat → Position) (ls : List String) : Description :=
  ⟨ls.mapIdx fun i l => ⟨place i, ";" ++ l⟩⟩

theorem bodies_marked (place : Nat → Position) {ls : List String}
    (h : ∀ l ∈ ls, body (";" ++ l) = l) : (marked place ls).bodies = ls := by
  refine List.ext_getElem? fun i => ?_
  rw [bodies, marked, List.getElem?_map, List.getElem?_mapIdx]
  cases hi : ls[i]? with
  | none => rfl
  | some l => exact congrArg some (h l (List.mem_of_getElem? hi))

theorem body_line (d : Description) : ∀ l ∈ d.lines, body (";" ++ l) = l := by
  intro l hl
  by_cases hblank : l = ""
  · subst hblank
    rfl
  · have hmem : l ∈ filled d.bodies := by
      rw [← filled_collapse true d.bodies]
      exact List.mem_filter.mpr ⟨hl, decide_eq_true hblank⟩
    obtain ⟨c, -, rfl⟩ := List.mem_map.mp (List.mem_filter.mp hmem).1
    exact body_marked (isBody_body c.text)

/-- The lines of a description begin with a line that is not blank, have no two blank lines behind
each other and end in one blank line; the others are what its comments say, and a blank line stands
between two of them if a blank comment does.  Written as comments they have the same lines. -/
theorem lines_normalForm (d : Description) :
    (∀ l ∈ d.lines.head?, l ≠ "") ∧
    (d.lines.IsChain fun l m => l ≠ "" ∨ m ≠ "") ∧
    (d.lines = [] ∨ ∃ ls l, l ≠ "" ∧ d.lines = ls ++ [l, ""]) ∧
    (∀ c ∈ d.comments, IsBody c.text (body c.text)) ∧
    filled d.lines = filled d.bodies ∧
    (∀ before c between c' after, d.comments = before ++ c :: (between ++ c' :: after) →
      body c.text ≠ "" → body c'.text ≠ "" → (∀ e ∈ between, body e.text = "") →
      ∃ ls ls', d.lines = ls ++ body c.text ::
          ((if between = [] then [] else [""]) ++ body c'.text :: ls') ∧
        filled ls = filled (bodies ⟨before⟩)) ∧
    ∀ place, (marked place d.lines).lines = d.lines := by
  have htidy := tidy_collapse true d.bodies
  rw [← lines_eq] at htidy
  refine ⟨htidy.head, htidy.isChain, ?_, fun c _ => isBody_body c.text,
    filled_collapse true d.bodies, ?_, ?_⟩
  · obtain ⟨-, h⟩ | ⟨h, -⟩ | h := htidy.ends
    · exact .inl h
    · cases h
    · exact .inr h
  · intro before c between c' after hd hc hc' hbetween
    have hbodies : d.bodies = bodies ⟨before⟩ ++ body c.text ::
        (bodies ⟨between⟩ ++ body c'.text :: bodies ⟨after⟩) := by
      simp [bodies, hd]
    have hblank : ∀ m ∈ bodies ⟨between⟩, m = "" := by
      simpa [bodies] using hbetween
    obtain ⟨ls, hls, hfilled⟩ := exists_collapse_append true (bodies ⟨before⟩) hc
      (bodies ⟨between⟩ ++ body c'.text :: bodies ⟨after⟩)
    refine ⟨ls, collapse false (bodies ⟨after⟩), ?_, hfilled⟩
    rw [lines_eq, hbodies, hls, collapse_between hblank hc']
    simp [bodies]
  · intro place
    rw [lines_eq, bodies_marked place (body_line d), collapse_of_tidy htidy]

/-- A blank comment before two others, and two between them. -/
def castOn : Description :=
  ⟨[⟨⟨1, 1⟩, ";"⟩, ⟨⟨2, 1⟩, "; Cast on"⟩, ⟨⟨3, 1⟩, ";"⟩, ⟨⟨4, 1⟩, "; \t"⟩,
    ⟨⟨5, 1⟩, ";  loosely\t"⟩]⟩

theorem lines_normalForm_castOn :
    castOn.lines = ["Cast on", "", "loosely", ""] ∧
    body "; Cast on" ≠ "" ∧ body ";  loosely\t" ≠ "" ∧
    (∀ e ∈ [(⟨⟨3, 1⟩, ";"⟩ : Comment), ⟨⟨4, 1⟩, "; \t"⟩], body e.text = "") ∧
    ∃ ls ls', castOn.lines = ls ++ body "; Cast on" :: ([""] ++ body ";  loosely\t" :: ls') ∧
      filled ls = filled (bodies ⟨[⟨⟨1, 1⟩, ";"⟩]⟩) := by
  have hbetween : ∀ e ∈ [(⟨⟨3, 1⟩, ";"⟩ : Comment), ⟨⟨4, 1⟩, "; \t"⟩], body e.text = "" := by
    decide
  have hcastOn : body "; Cast on" ≠ "" := by decide
  have hloosely : body ";  loosely\t" ≠ "" := by decide
  obtain ⟨-, -, -, -, -, hneighbours, -⟩ := lines_normalForm castOn
  exact ⟨rfl, hcastOn, hloosely, hbetween,
    hneighbours [⟨⟨1, 1⟩, ";"⟩] ⟨⟨2, 1⟩, "; Cast on"⟩ _ ⟨⟨5, 1⟩, ";  loosely\t"⟩ [] rfl hcastOn
      hloosely hbetween⟩

end Description
end KnittingPattern
