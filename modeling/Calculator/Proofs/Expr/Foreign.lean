import Calculator.Expr.Build
import Calculator.Proofs.Expr.Turns

/-!
Foreign nodes.  Evaluating a tree, counting its literals and emitting its code are walks of one
shape, so they refuse the same trees, and each names the leftmost foreign node.  The constructors of
instructions check once more what they are given, but a literal holds only what a push accepts.
-/
namespace Calculator

namespace Expr

variable {e left right : Expr} {op : Operator} {path path' : List Side} {shown : String} {α : Type}

/-! ### The leftmost foreign node -/

/-- The first path turns to the left where the second one turns to the right. -/
def LeftOf (path path' : List Side) : Prop :=
  ∃ common rest rest', path = common ++ .left :: rest ∧ path' = common ++ .right :: rest'

/-- The path leads to a foreign node, and to the left of all others. -/
structure Leftmost (e : Expr) (path : List Side) (shown : String) : Prop where
  at?_eq : e.at? path = some (.foreign shown)
  leftOf : ∀ path' shown', e.at? path' = some (.foreign shown') → path' ≠ path →
    LeftOf path path'

theorem LeftOf.cons (side : Side) (h : LeftOf path path') :
    LeftOf (side :: path) (side :: path') := by
  obtain ⟨common, rest, rest', rfl, rfl⟩ := h
  exact ⟨side :: common, rest, rest', rfl, rfl⟩

theorem leftOf_of_turn (rest rest' : List Side) : LeftOf (.left :: rest) (.right :: rest') :=
  ⟨[], rest, rest', rfl, rfl⟩

theorem leftmost_foreign (shown : String) : (foreign shown).Leftmost [] shown := by
  refine ⟨rfl, ?_⟩
  intro path' shown' h hne
  cases path' with
  | nil => exact absurd rfl hne
  | cons side rest => simp [at?] at h

/-- A tree of literals and operators is one without foreign nodes. -/
theorem wellFormed_iff : e.WellFormed ↔ ∀ path shown, e.at? path ≠ some (.foreign shown) := by
  induction e with
  | literal x =>
      refine iff_of_true trivial ?_
      intro path shown h
      cases path with
      | nil => cases h
      | cons side rest => simp [at?] at h
  | binary op left right ihLeft ihRight =>
      rw [WellFormed, ihLeft, ihRight]
      constructor
      · rintro ⟨hleft, hright⟩ path shown h
        cases path with
        | nil => cases h
        | cons side rest =>
            cases side with
            | left => exact hleft rest shown h
            | right => exact hright rest shown h
      · intro h
        exact ⟨fun path => h (.left :: path), fun path => h (.right :: path)⟩
  | foreign shown => exact iff_of_false id fun h => h [] shown rfl

theorem Leftmost.not_wellFormed (h : e.Leftmost path shown) : ¬ e.WellFormed :=
  fun he => wellFormed_iff.mp he path shown h.at?_eq

theorem Leftmost.of_left (h : left.Leftmost path shown) :
    (binary op left right).Leftmost (.left :: path) shown := by
  refine ⟨h.at?_eq, ?_⟩
  intro path' shown' hpath' hne
  cases path' with
  | nil => cases hpath'
  | cons side rest =>
      cases side with
      | left =>
          have hrest := h.leftOf rest shown' hpath' fun heq => hne (congrArg _ heq)
          exact hrest.cons .left
      | right => exact leftOf_of_turn path rest

/-- If there is none on the left, the leftmost foreign node on the right is the leftmost one. -/
theorem Leftmost.of_right (h : right.Leftmost path shown) (hleft : left.WellFormed) :
    (binary op left right).Leftmost (.right :: path) shown := by
  refine ⟨h.at?_eq, ?_⟩
  intro path' shown' hpath' hne
  cases path' with
  | nil => cases hpath'
  | cons side rest =>
      cases side with
      | left => exact absurd hpath' (wellFormed_iff.mp hleft rest shown')
      | right =>
          have hrest := h.leftOf rest shown' hpath' fun heq => hne (congrArg _ heq)
          exact hrest.cons .right

/-! ### Walks of one shape -/

/-- A walk over the tree, given what it makes of a literal and of a node with its subtrees. -/
def walk (leaf : Float → α) (node : Operator → α → α → α) : Expr → Except Complaint α
  | literal x => .ok (leaf x)
  | binary op left right => do
    let a ← left.walk leaf node
    let b ← right.walk leaf node
    return node op a b
  | foreign shown => .error (.unknownNode shown)

theorem value_eq_walk (e : Expr) : e.value = e.walk id Operator.apply := by
  induction e with
  | literal x => rfl
  | binary op left right ihLeft ihRight => simp only [value, walk, ihLeft, ihRight]
  | foreign shown => rfl

theorem leafCount_eq_walk (e : Expr) : e.leafCount = e.walk (fun _ => 1) (fun _ m n => m + n) := by
  induction e with
  | literal x => rfl
  | binary op left right ihLeft ihRight => simp only [leafCount, walk, ihLeft, ihRight]
  | foreign shown => rfl

theorem code_eq_walk (e : Expr) :
    e.code = e.walk (fun x => [.push x]) (fun op xs ys => xs ++ ys ++ [.apply op]) := by
  induction e with
  | literal x => rfl
  | binary op left right ihLeft ihRight => simp only [code, walk, ihLeft, ihRight]
  | foreign shown => rfl

/-- Every walk over a tree without foreign nodes comes to an end. -/
theorem WellFormed.exists_walk (he : e.WellFormed) (leaf : Float → α)
    (node : Operator → α → α → α) : ∃ a, e.walk leaf node = .ok a := by
  induction e with
  | literal x => exact ⟨_, rfl⟩
  | binary op left right ihLeft ihRight =>
      obtain ⟨a, ha⟩ := ihLeft he.1
      obtain ⟨b, hb⟩ := ihRight he.2
      refine ⟨node op a b, ?_⟩
      rw [walk, ha, hb]
      rfl
  | foreign shown => exact he.elim

/-- Every walk over another tree is refused at the leftmost foreign node. -/
theorem exists_leftmost (he : ¬ e.WellFormed) :
    ∃ path shown, e.Leftmost path shown ∧ ∀ (α : Type) (leaf : Float → α)
      (node : Operator → α → α → α), e.walk leaf node = .error (.unknownNode shown) := by
  induction e with
  | literal x => exact absurd trivial he
  | binary op left right ihLeft ihRight =>
      by_cases hleft : left.WellFormed
      · obtain ⟨path, shown, hleftmost, hwalk⟩ := ihRight fun hright => he ⟨hleft, hright⟩
        refine ⟨.right :: path, shown, hleftmost.of_right hleft, fun α leaf node => ?_⟩
        obtain ⟨a, ha⟩ := hleft.exists_walk leaf node
        rw [walk, ha, hwalk]
        rfl
      · obtain ⟨path, shown, hleftmost, hwalk⟩ := ihLeft hleft
        refine ⟨.left :: path, shown, hleftmost.of_left, fun α leaf node => ?_⟩
        rw [walk, hwalk]
        rfl
  | foreign shown => exact ⟨[], shown, leftmost_foreign shown, fun α leaf node => rfl⟩

/-! ### Emitting code -/

/-- The code of a tree behind the instructions that were emitted before, each one built by its
constructor. -/
def emit (before : List Instr) : Expr → Except Complaint (List Instr)
  | literal x => do
    let i ← Instr.pushOf (.float x)
    return before ++ [i]
  | binary op left right => do
    let first ← left.emit before
    let second ← right.emit first
    let i ← Instr.applyOf (.operator op)
    return second ++ [i]
  | foreign shown => .error (.unknownNode shown)

theorem emit_eq (before : List Instr) (e : Expr) :
    e.emit before = e.code.map (before ++ ·) := by
  induction e generalizing before with
  | literal x => rfl
  | binary op left right ihLeft ihRight =>
      rw [emit, code, ihLeft]
      cases left.code with
      | error c => rfl
      | ok xs =>
          simp only [Except.map, bind, Except.bind, ihRight]
          cases right.code with
          | error c => rfl
          | ok ys =>
              simp only [Instr.applyOf, Except.pure, pure, List.append_assoc]
  | foreign shown => rfl

/-- No constructor refuses what is emitted: the code is that of the tree. -/
theorem emit_nil (e : Expr) : e.emit [] = e.code := by
  rw [emit_eq]
  cases e.code with
  | error c => rfl
  | ok is => rfl

/-- Whatever a literal is built from, it holds a number that is pushed unchanged. -/
theorem pushOf_of_ofReal {d : Datum} (h : ofReal d = .ok e) :
    ∃ x, e = .literal x ∧ Instr.pushOf (.float x) = .ok (.push x) := by
  unfold ofReal at h
  split at h
  · rename_i x hx
    exact ⟨x, (Except.ok.inj h).symm, rfl⟩
  · cases h

/-! ### The walks compared -/

/-- How the walks over a tree of any height end: all with a result if no node is foreign, and else
all refused at the leftmost foreign node. -/
inductive Walked (e : Expr) : Prop where
  | returned {x : Float} {n : Nat} {is : List Instr}
      (hnone : ∀ path shown, e.at? path ≠ some (.foreign shown)) (hvalue : e.value = .ok x)
      (hcount : e.leafCount = .ok n) (hcode : e.code = .ok is)
  | refused {path : List Side} {shown : String} (hleftmost : e.Leftmost path shown)
      (hvalue : e.value = .error (.unknownNode shown))
      (hcount : e.leafCount = .error (.unknownNode shown))
      (hcode : e.code = .error (.unknownNode shown))

theorem walked (e : Expr) : e.Walked := by
  by_cases he : e.WellFormed
  · obtain ⟨x, hvalue⟩ : ∃ x, e.value = .ok x := by
      rw [value_eq_walk]
      exact he.exists_walk _ _
    obtain ⟨n, hcount⟩ : ∃ n, e.leafCount = .ok n := by
      rw [leafCount_eq_walk]
      exact he.exists_walk _ _
    obtain ⟨is, hcode⟩ : ∃ is, e.code = .ok is := by
      rw [code_eq_walk]
      exact he.exists_walk _ _
    exact .returned (wellFormed_iff.mp he) hvalue hcount hcode
  · obtain ⟨path, shown, hleftmost, hwalk⟩ := exists_leftmost he
    refine .refused hleftmost ?_ ?_ ?_
    · rw [value_eq_walk, hwalk]
    · rw [leafCount_eq_walk, hwalk]
    · rw [code_eq_walk, hwalk]

end Expr

namespace Datum

variable {d : Datum} {e : Expr} {f : Failure} {shown : String}

/-- The first thing in the datum that is no node of a tree: the datum itself, unless it is a tree,
and else the leftmost foreign node. -/
inductive FirstForeign : Datum → String → Prop where
  | other {d : Datum} (hd : ∀ e, d ≠ .expr e) : FirstForeign d d.shown
  | node {e : Expr} {path : List Expr.Side} {shown : String} (h : e.Leftmost path shown) :
      FirstForeign (.expr e) shown

/-- All three walks over the datum fail in the same way. -/
structure FailsAs (d : Datum) (f : Failure) : Prop where
  evaluate_eq : d.evaluate = .error f
  leaves_eq : d.leaves = .error f
  compile_eq : d.compile = .error f

/-- How the walks over a datum end: all with a result if it is a tree without foreign nodes, and
else all refused at what is foreign in it.  A tree that is too high for one of them is not compiled,
and evaluated and counted up to the heights that these walks can take. -/
inductive Walked (d : Datum) : Prop where
  | returned {x : Float} {n : Nat} {p : Program} (hnone : ∀ shown, ¬ d.FirstForeign shown)
      (hevaluate : d.evaluate = .ok x) (hleaves : d.leaves = .ok n) (hcompile : d.compile = .ok p)
  | refused {shown : String} (hforeign : d.FirstForeign shown)
      (h : d.FailsAs (.complaint (.unknownNode shown)))
  | high {e : Expr} (hd : d = .expr e) (hhigh : Expr.compileLimit < e.height)
      (hcompile : d.compile = .error .nestsTooDeeply)
      (hevaluate : d.evaluate = if e.height ≤ Expr.evaluateLimit then e.value.mapError .complaint
        else .error .nestsTooDeeply)
      (hleaves : d.leaves = if e.height ≤ Expr.leavesLimit then e.leafCount.mapError .complaint
        else .error .nestsTooDeeply)

theorem not_firstForeign (he : e.WellFormed) : ¬ (Datum.expr e).FirstForeign shown := by
  intro h
  generalize hd : Datum.expr e = d at h
  cases h with
  | other hnot => exact hnot e hd.symm
  | node hleftmost =>
      obtain rfl := Datum.expr.inj hd
      exact hleftmost.not_wellFormed he

/-- Within the least limit the walks over a tree are those over one of any height. -/
theorem walks_of_height_le (h : e.height ≤ Expr.compileLimit) :
    (expr e).evaluate = e.value.mapError .complaint ∧
      (expr e).leaves = e.leafCount.mapError .complaint ∧
      (expr e).compile = (e.code.map Program.ofInstrs).mapError .complaint :=
  have hleaves : Expr.compileLimit ≤ Expr.leavesLimit := by decide
  ⟨Expr.within_of_le (Nat.le_trans h Expr.compileLimit_le_evaluateLimit) _,
    Expr.within_of_le (Nat.le_trans h hleaves) _, Expr.within_of_le h _⟩

theorem walked_expr (e : Expr) : (expr e).Walked := by
  by_cases hheight : e.height ≤ Expr.compileLimit
  · obtain ⟨hevaluate, hleaves, hcompile⟩ := walks_of_height_le hheight
    cases e.walked with
    | returned hnone hvalue hcount hcode =>
        rw [hvalue] at hevaluate
        rw [hcount] at hleaves
        rw [hcode] at hcompile
        have he := Expr.wellFormed_iff.mpr hnone
        exact .returned (fun shown => not_firstForeign he) hevaluate hleaves hcompile
    | refused hleftmost hvalue hcount hcode =>
        rw [hvalue] at hevaluate
        rw [hcount] at hleaves
        rw [hcode] at hcompile
        exact .refused (.node hleftmost) ⟨hevaluate, hleaves, hcompile⟩
  · exact .high rfl (Nat.not_le.mp hheight) (if_neg hheight) rfl rfl

theorem walked (d : Datum) : d.Walked := by
  cases d with
  | expr e => exact walked_expr e
  | _ => exact .refused (.other nofun) ⟨rfl, rfl, rfl⟩

/-- Compiling never complains of an instruction. -/
theorem Walked.compile_ne (h : d.Walked) :
    d.compile ≠ .error (.complaint (.unknownInstruction shown)) := by
  intro hcompile
  cases h with
  | returned hnone hevaluate hleaves hok => cases hcompile.symm.trans hok
  | refused hforeign h => cases hcompile.symm.trans h.compile_eq
  | high hd hhigh hhighCompile => cases hcompile.symm.trans hhighCompile

/-- Main result: evaluating any datum, counting its literals and compiling it all have a result, or
all fail in the same way.  They are refused exactly if the datum is no tree or has a foreign node,
and at the leftmost one; only the height of a tree may prevent this, and does not matter without the
limits.  What is no tree is named by its text; where it has none that can be written
(`Datum.shownFault?`) the walks all fail to write it, which is set aside here.  No instruction is
ever refused: the code is emitted through the constructors of instructions, and whatever makes a
literal can be pushed unchanged. -/
theorem walks_agree (d : Datum) :
    d.Walked ∧ (∀ e, d = .expr e → e.Walked ∧ e.emit [] = e.code) ∧
      (∀ shown, d.compile ≠ .error (.complaint (.unknownInstruction shown))) ∧
      ∀ e, Expr.ofReal d = .ok e →
        ∃ x, e = .literal x ∧ Instr.pushOf (.float x) = .ok (.push x) :=
  ⟨d.walked, fun e _ => ⟨e.walked, e.emit_nil⟩, fun _ => d.walked.compile_ne,
    fun _ => Expr.pushOf_of_ofReal⟩

/-- Of two foreign nodes the left one is named by all three walks. -/
theorem walks_agree_two_foreign :
    (expr (.binary .add (.literal 1)
      (.binary .multiply (.foreign "Other(a)") (.foreign "Other(b)")))).FailsAs
        (.complaint (.unknownNode "Other(a)")) := by
  have hevaluate : (expr (.binary .add (.literal 1) (.binary .multiply (.foreign "Other(a)")
      (.foreign "Other(b)")))).evaluate = .error (.complaint (.unknownNode "Other(a)")) := rfl
  cases (walks_agree (expr (.binary .add (.literal 1)
      (.binary .multiply (.foreign "Other(a)") (.foreign "Other(b)"))))).1 with
  | returned hnone hok hleaves hcompile => cases hevaluate.symm.trans hok
  | refused hforeign h =>
      have hsame := Except.error.inj (hevaluate.symm.trans h.evaluate_eq)
      rwa [← hsame] at h
  | high hd hhigh hcompile =>
      rw [← Datum.expr.inj hd] at hhigh
      exact absurd hhigh (by decide)

end Datum

end Calculator
