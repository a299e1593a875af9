import Calculator.Expr.Walk
import Calculator.Proofs.Binary64.Identity
import Calculator.Proofs.Expr.Turns
import Calculator.Proofs.Program.Listing

/-!
Drawings of trees.  A leaf is drawn in one line; an inner node in a line that opens it, the lines of
its subtrees, and a line that closes it.  The lines are the same at every indent but for the blanks
before them.  And they can be read from the first one on: each opens or closes a node or is a leaf,
so the lines of a tree end where they must, whatever follows them, and no other tree has them.
-/
namespace Calculator

open Text (lines IsLine)

/-- What is put before each part makes the whole no shorter. -/
theorem Text.length_intercalate_le (sep front : String) (ss : List String) :
    (sep.intercalate ss).length ≤ (sep.intercalate (ss.map (front ++ ·))).length := by
  induction ss with
  | nil => exact Nat.le_refl _
  | cons s ss ih =>
      cases ss with
      | nil =>
          simp only [List.map_cons, List.map_nil, String.intercalate_singleton,
            String.length_append]
          omega
      | cons t ts =>
          simp only [List.map_cons, String.intercalate_cons_cons, String.length_append] at ih ⊢
          omega

theorem Operator.text_injective : Function.Injective Operator.text := by
  intro op op' h
  have hsymbol : op.symbol = op'.symbol := by simpa [text] using h
  have hop := ofChar?_symbol op
  rw [hsymbol, ofChar?_symbol] at hop
  exact (Option.some.inj hop).symm

/-- Different doubles are written differently. -/
theorem Number.text_injective : Function.Injective Number.text := by
  intro x y h
  have hx := Numeral.signedValue?_eq_some_iff.mpr (Numeral.writes_text x).signed
  have hy := Numeral.signedValue?_eq_some_iff.mpr (Numeral.writes_text y).signed
  rw [h, hy] at hx
  exact (Option.some.inj hx).symm

namespace Expr

variable {e e' left right : Expr} {op : Operator} {tail : String} {j k n : Nat}

/-! ### Identical trees -/

/-- The same shape, the same operators, and at each leaf the same double with all its bits; a NaN is
the same as every NaN. -/
inductive Identical : Expr → Expr → Prop where
  | literal {x y : Float} (hvalue : Binary64.identical x y = true) :
      Identical (.literal x) (.literal y)
  | binary {op : Operator} {left right left' right' : Expr} (hleft : Identical left left')
      (hright : Identical right right') :
      Identical (.binary op left right) (.binary op left' right')

theorem Identical.eq (h : e.Identical e') : e = e' := by
  induction h with
  | literal hvalue => rw [Binary64.identical_iff_eq.mp hvalue]
  | binary hleft hright ihLeft ihRight => rw [ihLeft, ihRight]

theorem WellFormed.identical_self (he : e.WellFormed) : e.Identical e := by
  induction e with
  | literal x => exact .literal (Binary64.identical_self x)
  | binary op left right ihLeft ihRight => exact .binary (ihLeft he.1) (ihRight he.2)
  | foreign shown => exact he.elim

theorem WellFormed.identical_iff_eq (he : e.WellFormed) : e.Identical e' ↔ e = e' := by
  constructor
  · exact Identical.eq
  · rintro rfl
    exact he.identical_self

/-! ### Lines of a drawing -/

/-- The text with `k` indents put before each of its lines. -/
def shifted (k : Nat) (s : String) : String :=
  "\n".intercalate ((lines s.toList).map fun line => indent k ++ String.ofList line)

theorem toList_indent (k : Nat) : (indent k).toList = List.replicate (4 * k) ' ' := by
  have hcount : (4 * (k : Int)).toNat = 4 * k := by omega
  rw [indent, String.toList_ofList, hcount]

theorem indent_add (j k : Nat) : indent (j + k : Nat) = indent k ++ indent j := by
  apply String.toList_inj.mp
  rw [String.toList_append, toList_indent, toList_indent, toList_indent, Nat.mul_add, Nat.add_comm,
    List.replicate_add]

/-- The lines of the drawing of a tree, with `tail` at the end of the last one. -/
def rows (k : Nat) (tail : String) : Expr → List String
  | literal x => [indent k ++ ("Literal(" ++ Number.text x ++ ")" ++ tail)]
  | binary op left right =>
    (indent k ++ ("BinaryOp(" ++ op.text ++ ", [")) ::
      (left.rows (k + 1) "," ++ (right.rows (k + 1) "" ++ [indent k ++ ("])" ++ tail)]))
  | foreign _ => []

/-- The first line of a drawing begins with the indent. -/
theorem WellFormed.exists_rows (he : e.WellFormed) (k : Nat) (tail : String) :
    ∃ body rest, e.rows k tail = (indent k ++ body) :: rest := by
  cases e with
  | literal x => exact ⟨_, _, rfl⟩
  | binary op left right => exact ⟨_, _, rfl⟩
  | foreign shown => exact he.elim

theorem WellFormed.rows_ne_nil (he : e.WellFormed) (k : Nat) (tail : String) :
    e.rows k tail ≠ [] := by
  obtain ⟨body, rest, hrows⟩ := he.exists_rows k tail
  rw [hrows]
  exact List.cons_ne_nil _ _

/-- A drawing with something behind it has these lines. -/
theorem WellFormed.exists_drawing (he : e.WellFormed) (k : Nat) :
    ∃ d, e.drawing? k = some d ∧ ∀ tail, d ++ tail = "\n".intercalate (e.rows k tail) := by
  induction e generalizing k with
  | literal x =>
      refine ⟨_, rfl, ?_⟩
      intro tail
      rw [rows, String.intercalate_singleton]
      simp only [String.append_assoc]
  | binary op left right ihLeft ihRight =>
      obtain ⟨first, hfirst, hleft⟩ := ihLeft he.1 (k + 1)
      obtain ⟨second, hsecond, hright⟩ := ihRight he.2 (k + 1)
      have hrights := he.2.rows_ne_nil (k + 1) ""
      have hlefts := he.1.rows_ne_nil (k + 1) ","
      refine ⟨indent k ++ "BinaryOp(" ++ op.text ++ ", [\n" ++ first ++ ",\n" ++ second ++ "\n" ++
        indent k ++ "])", ?_, ?_⟩
      · rw [Nat.cast_succ] at hfirst hsecond
        simp only [drawing?, hfirst, hsecond]
        rfl
      · intro tail
        -- the comma belongs to the last line of the left subtree
        have hcomma : ",\n" = "," ++ "\n" := rfl
        have hbracket : ", [\n" = ", [" ++ "\n" := rfl
        rw [rows, String.intercalate_cons_of_ne_nil (by simp),
          String.intercalate_append_of_ne_nil hlefts (by simp),
          String.intercalate_append_of_ne_nil hrights (by simp), String.intercalate_singleton,
          ← hleft, ← hright, hcomma, hbracket, String.append_empty]
        simp only [String.append_assoc]
  | foreign shown => exact he.elim

/-- The lines of the drawing of a tree as one text. -/
def drawingText (k : Nat) (e : Expr) : String :=
  "\n".intercalate (e.rows k "")

theorem WellFormed.drawing?_eq (he : e.WellFormed) (k : Nat) :
    e.drawing? k = some (e.drawingText k) := by
  obtain ⟨d, hdrawing, hrows⟩ := he.exists_drawing k
  rw [hdrawing, drawingText, ← hrows, String.append_empty]

/-- All lines are moved alike. -/
theorem rows_add (e : Expr) (j k : Nat) (tail : String) :
    e.rows (j + k) tail = (e.rows j tail).map (indent k ++ ·) := by
  induction e generalizing j tail with
  | literal x => simp only [rows, List.map_singleton, indent_add, String.append_assoc]
  | binary op left right ihLeft ihRight =>
      simp only [rows, Nat.add_right_comm j k 1, ihLeft, ihRight, List.map_cons, List.map_append,
        List.map_nil, indent_add, String.append_assoc]
  | foreign shown => rfl

/-- A leaf takes one line, and every further leaf comes with a node of two lines. -/
theorem WellFormed.exists_length_rows (he : e.WellFormed) :
    ∃ n, 0 < n ∧ e.leafCount = .ok n ∧ ∀ k tail, (e.rows k tail).length = 3 * n - 2 := by
  induction e with
  | literal x => exact ⟨1, Nat.one_pos, rfl, fun _ _ => rfl⟩
  | binary op left right ihLeft ihRight =>
      obtain ⟨m, hm, hleft, hlefts⟩ := ihLeft he.1
      obtain ⟨n, hn, hright, hrights⟩ := ihRight he.2
      refine ⟨m + n, Nat.add_pos_left hm n, ?_, ?_⟩
      · rw [leafCount, hleft, hright]
        rfl
      · intro k tail
        rw [rows, List.length_cons, List.length_append, List.length_append, hlefts, hrights,
          List.length_singleton]
        omega
  | foreign shown => exact he.elim

/-! ### Lines read back -/

/-- Nothing in the text ends a line. -/
def EndsNoLine (s : String) : Prop :=
  ∀ c ∈ s.toList, c ≠ '\n' ∧ c ≠ '\r'

theorem EndsNoLine.append {s t : String} (hs : EndsNoLine s) (ht : EndsNoLine t) :
    EndsNoLine (s ++ t) := by
  rw [EndsNoLine, String.toList_append]
  exact List.forall_mem_append.mpr ⟨hs, ht⟩

theorem endsNoLine_empty : EndsNoLine "" := by
  simp [EndsNoLine]

theorem endsNoLine_indent (k : Nat) : EndsNoLine (indent k) := by
  intro c hc
  rw [toList_indent] at hc
  rw [List.eq_of_mem_replicate hc]
  decide

theorem endsNoLine_text (x : Float) : EndsNoLine (Number.text x) :=
  (Numeral.writes_text x).isWord.no_end

theorem isLine_indent_append {body : String} (hne : body ≠ "") (hbody : EndsNoLine body) :
    IsLine (indent k ++ body).toList where
  ne_nil := by simp [hne]
  no_end := (endsNoLine_indent k).append hbody

theorem isLine_of_mem_rows (htail : EndsNoLine tail) :
    ∀ row ∈ e.rows k tail, IsLine row.toList := by
  induction e generalizing k tail with
  | literal x =>
      have hopening : EndsNoLine "Literal(" := by simp [EndsNoLine]
      have hclosing : EndsNoLine ")" := by simp [EndsNoLine]
      have hbody := ((hopening.append (endsNoLine_text x)).append hclosing).append htail
      exact List.forall_mem_singleton.mpr (isLine_indent_append (by simp) hbody)
  | binary op left right ihLeft ihRight =>
      have hname : EndsNoLine "BinaryOp(" := by simp [EndsNoLine]
      have hbracket : EndsNoLine ", [" := by simp [EndsNoLine]
      have hopening := (hname.append op.isWord_text.no_end).append hbracket
      have hend : EndsNoLine "])" := by simp [EndsNoLine]
      have hclosing := hend.append htail
      have hcomma : EndsNoLine "," := by simp [EndsNoLine]
      simp only [rows, List.forall_mem_cons, List.forall_mem_append]
      exact ⟨isLine_indent_append (by simp) hopening, ihLeft hcomma, ihRight endsNoLine_empty,
        isLine_indent_append (by simp) hclosing, List.forall_mem_nil _⟩
  | foreign shown => exact List.forall_mem_nil _

theorem lines_drawingText (e : Expr) (k : Nat) :
    lines (e.drawingText k).toList = (e.rows k "").map String.toList := by
  rw [drawingText, String.toList_intercalate]
  refine Text.lines_intercalate ?_
  intro line hline
  obtain ⟨row, hrow, rfl⟩ := List.mem_map.mp hline
  exact isLine_of_mem_rows endsNoLine_empty row hrow

/-- A drawing is moved to any indent by moving its lines. -/
theorem shifted_drawingText (e : Expr) (j k : Nat) :
    shifted k (e.drawingText j) = e.drawingText (j + k) := by
  rw [shifted, lines_drawingText, List.map_map, drawingText, rows_add]
  congr 2
  funext row
  rw [Function.comp_apply, String.ofList_toList]

/-- The line of a leaf opens no node. -/
theorem leafRow_ne_openingRow (s t : String) :
    indent k ++ ("Literal(" ++ s) ≠ indent k ++ ("BinaryOp(" ++ t) := by
  intro h
  have hbody := congrArg String.toList ((String.append_right_inj _).mp h)
  simp at hbody

/-- The lines of a tree are read from the first one on, whatever follows the last one. -/
theorem rows_append_inj (he : e.WellFormed) (he' : e'.WellFormed) {us us' : List String}
    (h : e.rows k tail ++ us = e'.rows k tail ++ us') : e = e' ∧ us = us' := by
  induction e generalizing e' k tail us us' with
  | literal x =>
      cases e' with
      | literal y =>
          obtain ⟨hrow, hrest⟩ := List.cons.inj h
          have htext : Number.text x = Number.text y := by
            simpa [String.append_assoc] using hrow
          exact ⟨congrArg literal (Number.text_injective htext), hrest⟩
      | binary op left right =>
          have hrow := (List.cons.inj h).1
          simp only [String.append_assoc] at hrow
          exact absurd hrow (leafRow_ne_openingRow _ _)
      | foreign shown => exact he'.elim
  | binary op left right ihLeft ihRight =>
      cases e' with
      | literal y =>
          have hrow := (List.cons.inj h).1
          simp only [String.append_assoc] at hrow
          exact absurd hrow.symm (leafRow_ne_openingRow _ _)
      | binary op' left' right' =>
          simp only [rows, List.cons_append, List.append_assoc, List.cons.injEq] at h
          obtain ⟨hrow, hlefts⟩ := h
          have htext : op.text = op'.text := by simpa [String.append_assoc] using hrow
          -- where the lines of the left subtree end, those of the right one begin
          obtain ⟨hleft, hrights⟩ := ihLeft he.1 he'.1 hlefts
          obtain ⟨hright, hclosings⟩ := ihRight he.2 he'.2 hrights
          rw [Operator.text_injective htext, hleft, hright]
          exact ⟨rfl, (List.cons.inj hclosings).2⟩
      | foreign shown => exact he'.elim
  | foreign shown => exact he.elim

/-- A drawing at an indent is the drawing of one tree only. -/
theorem WellFormed.drawing?_eq_iff (he : e.WellFormed) (he' : e'.WellFormed) :
    e.drawing? k = e'.drawing? k ↔ e = e' := by
  constructor
  · intro h
    rw [he.drawing?_eq, he'.drawing?_eq] at h
    have hlines := congrArg (lines ∘ String.toList) (Option.some.inj h)
    simp only [Function.comp_apply, lines_drawingText] at hlines
    have hrows := List.map_injective_iff.mpr (fun _ _ => String.toList_inj.mp) hlines
    exact (rows_append_inj he he' (congrArg (· ++ []) hrows)).1
  · rintro rfl
    rfl

/-! ### Drawings that find room -/

open Report (countLimit lengthLimit)

/-- The failure says that a count or a text is too large. -/
def NoRoom (f : Failure) : Prop :=
  f = .internal .capacityTooLarge ∨ f = .internal .textTooLong ∨ f = .internal .outOfMemory

/-- Only more blanks than any text has room for cannot be put before the root. -/
theorem noRoom_of_indentFault? {i : Internal} (h : e.indentFault? k = some i) :
    NoRoom (.internal i) ∧ lengthLimit ≤ 4 * k := by
  have hlimits : 0 ≤ countLimit ∧ 4 * lengthLimit ≤ countLimit := by decide
  unfold indentFault? at h
  split at h
  · cases h
  · split at h
    · rename_i hword
      obtain rfl := Option.some.inj h
      simp only [Bool.or_eq_true, decide_eq_true_eq] at hword
      exact ⟨.inl rfl, by omega⟩
    · split at h
      · obtain rfl := Option.some.inj h
        exact ⟨.inr (.inl rfl), by omega⟩
      · split at h
        · obtain rfl := Option.some.inj h
          exact ⟨.inr (.inr rfl), by omega⟩
        · cases h

/-- The blanks before the root are in the drawing. -/
theorem WellFormed.four_mul_le_length (he : e.WellFormed) (k : Nat) :
    4 * k ≤ (e.drawingText k).length := by
  obtain ⟨body, rest, hrows⟩ := he.exists_rows k ""
  rw [drawingText, hrows, String.intercalate_cons_append, String.length_append,
    ← String.length_toList, toList_indent, List.length_replicate]
  exact Nat.le_add_right _ _

/-- A drawing at the margin is no longer than one at an indent. -/
theorem length_drawingText_le (e : Expr) (k : Nat) :
    (e.drawingText 0).length ≤ (e.drawingText k).length := by
  have hle := Text.length_intercalate_le "\n" (indent k) (e.rows 0 "")
  rwa [← rows_add, Nat.zero_add] at hle

/-- A tree is drawn unless it is too high, or its drawing too long. -/
theorem WellFormed.draw_cases (he : e.WellFormed) (k : Nat) :
    (e.height ≤ drawLimit ∧ (e.drawingText k).length < lengthLimit ∧
        e.draw k = .ok (e.drawingText k)) ∨
      (drawLimit < e.height ∧ e.draw k = .error .nestsTooDeeply) ∨
      (lengthLimit ≤ (e.drawingText k).length ∧ ∃ f, NoRoom f ∧ e.draw k = .error f) := by
  have hblanks := he.four_mul_le_length k
  rw [draw, he.drawing?_eq]
  cases hfault : e.indentFault? k with
  | some i =>
      obtain ⟨hroom, hlong⟩ := noRoom_of_indentFault? hfault
      exact .inr (.inr ⟨by omega, _, hroom, rfl⟩)
  | none =>
      by_cases hheight : e.height ≤ drawLimit
      · simp only [within_of_le hheight]
        by_cases hlength : ((e.drawingText k).length : Int) < lengthLimit
        · exact .inl ⟨hheight, hlength, if_pos hlength⟩
        · exact .inr (.inr ⟨Int.not_lt.mp hlength, _, .inr (.inr rfl), if_neg hlength⟩)
      · exact .inr (.inl ⟨Nat.lt_of_not_le hheight, if_neg hheight⟩)

theorem WellFormed.draw_of_room (he : e.WellFormed) (hheight : e.height ≤ drawLimit)
    (hroom : (e.drawingText k).length < lengthLimit) : e.draw k = .ok (e.drawingText k) := by
  rcases he.draw_cases k with ⟨-, -, hdraw⟩ | ⟨hhigh, -⟩ | ⟨hlong, -⟩
  · exact hdraw
  · omega
  · omega

/-- What a tree is drawn as is its drawing, and it is not too high. -/
theorem WellFormed.of_draw {d : String} (he : e.WellFormed) (h : e.draw k = .ok d) :
    e.height ≤ drawLimit ∧ e.drawing? k = some d := by
  rcases he.draw_cases k with ⟨hheight, -, hdraw⟩ | ⟨-, hdraw⟩ | ⟨-, f, -, hdraw⟩
  · refine ⟨hheight, ?_⟩
    rw [he.drawing?_eq, Except.ok.inj (hdraw.symm.trans h)]
  · cases hdraw.symm.trans h
  · cases hdraw.symm.trans h

/-- The text `s` is the drawing of a tree with `n` leaves, and at every indent the tree is drawn as
this text moved to the right, with a line for each leaf and two for each inner node.  It is refused
only if it is too high to be walked, or if there is no room for the text. -/
structure Drawn (e : Expr) (n : Nat) (s : String) : Prop where
  unshifted : shifted 0 s = s
  drawing_eq : ∀ k : Nat, e.drawing? k = some (shifted k s)
  line_count : ∀ k : Nat, (lines (shifted k s).toList).length = 3 * n - 2
  draw_eq : ∀ k : Nat, e.height ≤ drawLimit → (shifted k s).length < lengthLimit →
    e.leaves = .ok n ∧ e.draw 0 = .ok s ∧ e.draw k = .ok (shifted k s)
  refused : ∀ k : Nat, ¬ (e.height ≤ drawLimit ∧ (shifted k s).length < lengthLimit) →
    ∃ f, e.draw k = .error f ∧ (f = .nestsTooDeeply ∧ drawLimit < e.height ∨
      NoRoom f ∧ lengthLimit ≤ (shifted k s).length)

theorem WellFormed.exists_drawn (he : e.WellFormed) :
    ∃ n s, e.leafCount = .ok n ∧ e.Drawn n s := by
  obtain ⟨n, -, hcount, hlength⟩ := he.exists_length_rows
  have hshifted (k : Nat) : shifted k (e.drawingText 0) = e.drawingText k := by
    rw [shifted_drawingText, Nat.zero_add]
  refine ⟨n, e.drawingText 0, hcount, hshifted 0, ?_, ?_, ?_, ?_⟩
  · intro k
    rw [hshifted, he.drawing?_eq]
  · intro k
    rw [hshifted, lines_drawingText, List.length_map, hlength]
  · intro k hheight hroom
    rw [hshifted] at hroom ⊢
    have hle := length_drawingText_le e k
    have hmargin : e.draw (0 : Nat) = .ok (e.drawingText 0) :=
      he.draw_of_room hheight (by omega)
    have hcounted : e.height ≤ leavesLimit := Nat.le_trans hheight (by decide)
    refine ⟨?_, hmargin, he.draw_of_room hheight hroom⟩
    rw [leaves, within_of_le hcounted, hcount]
    rfl
  · intro k hrefused
    rw [hshifted] at hrefused ⊢
    rcases he.draw_cases k with ⟨hheight, hroom, -⟩ | ⟨hhigh, hdraw⟩ | ⟨hlong, f, hf, hdraw⟩
    · exact absurd ⟨hheight, hroom⟩ hrefused
    · exact ⟨_, hdraw, .inl ⟨rfl, hhigh⟩⟩
    · exact ⟨f, hdraw, .inr ⟨hf, hlong⟩⟩

/-- Main result: however far it is indented, the drawing of a tree with `n` leaves has `3 * n - 2`
lines, those of the drawing at the margin behind the blanks of the indent; and two trees have the
same drawing just if they are identical.  Drawing gives just this text as long as the tree is not
too high to be walked and the text finds room. -/
theorem drawing_shifts_and_separates :
    (∀ e : Expr, e.WellFormed → ∃ n s, e.leafCount = .ok n ∧ e.Drawn n s) ∧
    ∀ e e' : Expr, e.WellFormed → e'.WellFormed → ∀ k : Nat,
      (e.drawing? k = e'.drawing? k ↔ e.Identical e') ∧
      ∀ s, e.draw k = .ok s → (e'.draw k = .ok s ↔ e.Identical e') := by
  constructor
  · intro e he
    exact he.exists_drawn
  · intro e e' he he' k
    rw [he.identical_iff_eq]
    refine ⟨he.drawing?_eq_iff he', ?_⟩
    intro s hdraw
    constructor
    · intro hdraw'
      have hsame := (he.of_draw hdraw).2.trans (he'.of_draw hdraw').2.symm
      exact (he.drawing?_eq_iff he').mp hsame
    · rintro rfl
      exact hdraw

/-- The product `(2 + 1) * 3` is drawn in seven lines, and the two zeros are drawn differently. -/
theorem drawing_shifts_and_separates_product :
    (binary .multiply (binary .add (literal 2) (literal 1)) (literal 3)).WellFormed ∧
      (∃ s, (binary .multiply (binary .add (literal 2) (literal 1)) (literal 3)).draw 0 = .ok s ∧
        (binary .multiply (binary .add (literal 2) (literal 1)) (literal 3)).draw 1 =
          .ok (shifted 1 s) ∧
        shifted 1 s = "    BinaryOp(*, [\n        BinaryOp(+, [\n            Literal(2),\n" ++
          "            Literal(1)\n        ]),\n        Literal(3)\n    ])" ∧
        (lines (shifted 1 s).toList).length = 7) ∧
      (literal 0).WellFormed ∧ (literal (-0)).WellFormed ∧
      (literal 0).drawing? 2 ≠ (literal (-0)).drawing? 2 := by
  have hwell : (binary .multiply (binary .add (literal 2) (literal 1)) (literal 3)).WellFormed :=
    ⟨⟨trivial, trivial⟩, trivial⟩
  obtain ⟨n, s, hcount, hdrawn⟩ := drawing_shifts_and_separates.1 _ hwell
  obtain rfl : 3 = n := Except.ok.inj hcount
  have hdrawing : (binary .multiply (binary .add (literal 2) (literal 1)) (literal 3)).drawing? 1 =
      some ("    BinaryOp(*, [\n        BinaryOp(+, [\n            Literal(2),\n" ++
        "            Literal(1)\n        ]),\n        Literal(3)\n    ])") := by decide +kernel
  have htext := Option.some.inj ((hdrawn.drawing_eq 1).symm.trans hdrawing)
  have hroom : ((shifted 1 s).length : Int) < lengthLimit := by
    rw [htext]
    decide +kernel
  obtain ⟨-, hmargin, hdraw⟩ := hdrawn.draw_eq 1 (by decide) hroom
  have hzeros := (drawing_shifts_and_separates.2 (literal 0) (literal (-0)) trivial trivial 2).1
  refine ⟨hwell, ⟨s, hmargin, hdraw, htext, hdrawn.line_count 1⟩, trivial, trivial, ?_⟩
  intro hsame
  rcases hzeros.mp hsame with ⟨hvalue⟩
  exact absurd hvalue (by decide +kernel)

/-- A chain with too many operands is not drawn. -/
theorem draw_chain_of_le (x : Float) {rest : List (Operator × Float)}
    (hlong : drawLimit ≤ rest.length) :
    (chain x rest).WellFormed ∧ ∀ (k : Nat) (d : String), (chain x rest).draw k ≠ .ok d := by
  have hwell := wellFormed_chain x rest
  refine ⟨hwell, ?_⟩
  intro k d h
  have hheight := (hwell.of_draw h).1
  rw [height_chain] at hheight
  exact absurd hlong (Nat.not_le.mpr hheight)

/-- No text has room for `2 ^ 65` blanks, so a literal that is indented `2 ^ 63` times is not drawn;
and a sum of 2500 ones is too high to be walked, so it is not drawn at any indent. -/
theorem far_indent_not_drawn :
    (literal 1).WellFormed ∧ (literal 1).draw 0 = .ok "Literal(1)" ∧
      (∀ d, (literal 1).draw 9223372036854775808 ≠ .ok d) ∧
      (chain 1 (List.replicate 2499 (.add, 1))).WellFormed ∧
      ∀ (k : Nat) (d : String), (chain 1 (List.replicate 2499 (.add, 1))).draw k ≠ .ok d := by
  have hmargin : (literal 1).indentFault? 0 = none := rfl
  have hdrawing : (literal 1).drawing? 0 = some "Literal(1)" := by decide +kernel
  have hfault : (literal 1).indentFault? 9223372036854775808 = some .capacityTooLarge := rfl
  have hlow : (literal 1).height ≤ drawLimit := by decide
  refine ⟨trivial, ?_, ?_, draw_chain_of_le 1 ?_⟩
  · simp only [draw, hmargin, within_of_le hlow, hdrawing]
    exact if_pos (by decide)
  · intro d h
    rw [draw, hfault] at h
    cases h
  · rw [List.length_replicate]
    decide

end Expr

end Calculator
