import Calculator.Program.Listing
import Calculator.Proofs.Binary64.Rounding
import Calculator.Proofs.Datum.Showing
import Calculator.Proofs.Expr.Turns
import Calculator.Proofs.Program.Records

/-!
Which data are records of a program.  Data of any kind may be offered, and each of them is valid or
is refused with one kind of complaint, whether it does not unpack into two elements, the first is no
tag or the second does not fit.  The first datum that is not valid decides.  The complaint shows
what is refused, so a datum that cannot be written out is refused by this failure instead.
-/
namespace Calculator

namespace Datum

variable {d : Datum} {x : Float} {op : Operator} {xs ys : List Datum}

/-- The elements that a datum unpacks into: those of a list or a tuple, and the characters of a
text. -/
inductive Unpacks : Datum → List Datum → Prop where
  | list (items : List Datum) : Unpacks (.list items) items
  | tuple (items : List Datum) : Unpacks (.tuple items) items
  | text (s : String) : Unpacks (.text s) (s.toList.map fun c => .text (String.singleton c))

theorem Unpacks.unique (h : Unpacks d xs) (h' : Unpacks d ys) : xs = ys := by
  cases h <;> cases h' <;> rfl

/-- A real number is a double, or an integer in the range of the doubles. -/
theorem exists_real?_iff : (∃ x, d.real? = .ok x) ↔
    (∃ x, d = .float x) ∨ ∃ n, d = .int n ∧ n.natAbs < Binary64.rangeEnd := by
  fun_cases real? d with
  | case1 x => simp
  | case2 n x hx =>
      have hrange := Binary64.exists_ofInt?_iff.mp ⟨x, hx⟩
      simp [hrange]
  | case3 n hx =>
      have hrange : ¬ n.natAbs < Binary64.rangeEnd := by
        intro h
        obtain ⟨x, hx'⟩ := Binary64.exists_ofInt?_iff.mpr h
        cases hx.symm.trans hx'
      simpa using hrange
  | case4 d hfloat hint =>
      constructor
      · rintro ⟨x, ⟨⟩⟩
      · rintro (⟨x, rfl⟩ | ⟨n, rfl, -⟩)
        · exact absurd rfl (hfloat x)
        · exact absurd rfl (hint n)

/-- An operator is denoted by itself and by its symbol. -/
theorem operator?_eq_some_iff :
    d.operator? = some op ↔ d = .operator op ∨ d = .text op.text := by
  cases d with
  | operator op' => simp [operator?]
  | text s =>
      rw [operator?]
      constructor
      · intro h
        rw [Operator.text_of_ofSymbol? h]
        exact .inr rfl
      · rintro (⟨⟨⟩⟩ | h)
        rw [Datum.text.inj h]
        cases op <;> rfl
  | _ => simp [operator?]

end Datum

namespace Record

open Datum (Unpacks)

variable {d operand first second part part' : Datum} {n n' : Nat} {tag line : String}
  {c c' : Complaint} {f f' : Failure} {r : Record}

/-- The operand fits the tag: a number in the range of the doubles for a push, and an operator or
its symbol for an application. -/
inductive Fits : String → Datum → Prop where
  | float (x : Float) : Fits "push" (.float x)
  | int {n : Int} (hrange : n.natAbs < Binary64.rangeEnd) : Fits "push" (.int n)
  | symbol (op : Operator) : Fits "apply" (.text op.text)
  | operator (op : Operator) : Fits "apply" (.operator op)

/-- The datum unpacks into a tag and an operand that fits. -/
def Valid (d : Datum) : Prop :=
  ∃ tag operand, Unpacks d [.text tag, operand] ∧ Fits tag operand

/-- What is complained of in a datum that is not valid, with the part of the datum that is shown and
the number of calls that there are to write it: the push that it would state, if that is its tag,
and else the whole datum. -/
inductive Blamed (d : Datum) : Datum → Nat → Complaint → Prop where
  | push {operand : Datum} (hunpacks : Unpacks d [.text "push", operand]) :
      Blamed d operand (Datum.shownLimit - Datum.fieldCalls)
        (.unknownInstruction (Instr.shownPush Instr.pushKind operand.shown))
  | whole (hnot : ∀ operand, ¬ Unpacks d [.text "push", operand]) :
      Blamed d d Datum.shownLimit (.unknownInstruction d.shown)

/-- How a datum that is not valid is refused: with the complaint, if what is blamed can be shown,
and else with the failure to show it. -/
inductive Refused (d : Datum) : Failure → Prop where
  | shown {part : Datum} {n : Nat} {c : Complaint} (hblamed : Blamed d part n c)
      (hshown : part.shownFault? n = none) : Refused d (.complaint c)
  | unshown {part : Datum} {n : Nat} {c : Complaint} {f : Failure} (hblamed : Blamed d part n c)
      (hfault : part.shownFault? n = some f) : Refused d f

/-! ### One datum -/

/-- An operand fits a push if it is a real number. -/
theorem fits_push_iff : Fits "push" operand ↔ ∃ x, operand.real? = .ok x := by
  rw [Datum.exists_real?_iff]
  constructor
  · intro h
    generalize htag : "push" = tag at h
    cases h with
    | float x => exact .inl ⟨x, rfl⟩
    | int hrange => exact .inr ⟨_, rfl, hrange⟩
    | symbol op => exact absurd htag (by decide)
    | operator op => exact absurd htag (by decide)
  · rintro (⟨x, rfl⟩ | ⟨n, rfl, hrange⟩)
    · exact .float x
    · exact .int hrange

/-- An operand fits an application if it denotes an operator. -/
theorem fits_apply_iff : Fits "apply" operand ↔ ∃ op, operand.operator? = some op := by
  simp only [Datum.operator?_eq_some_iff]
  constructor
  · intro h
    generalize htag : "apply" = tag at h
    cases h with
    | float x => exact absurd htag (by decide)
    | int hrange => exact absurd htag (by decide)
    | symbol op => exact ⟨op, .inr rfl⟩
    | operator op => exact ⟨op, .inl rfl⟩
  · rintro ⟨op, rfl | rfl⟩
    · exact .operator op
    · exact .symbol op

theorem Fits.tag_eq (h : Fits tag operand) : tag = "push" ∨ tag = "apply" := by
  cases h with
  | float x => exact .inl rfl
  | int hrange => exact .inl rfl
  | symbol op => exact .inr rfl
  | operator op => exact .inr rfl

/-- Since a datum unpacks in one way only, it is valid if its operand fits its tag. -/
theorem valid_iff_fits (h : Unpacks d [.text tag, operand]) : Valid d ↔ Fits tag operand := by
  constructor
  · rintro ⟨tag', operand', hunpacks, hfits⟩
    obtain ⟨htag, htail⟩ := List.cons.inj (hunpacks.unique h)
    rwa [Datum.text.inj htag, (List.cons.inj htail).1] at hfits
  · exact fun hfits => ⟨tag, operand, h, hfits⟩

/-- What is blamed in a datum is determined. -/
theorem Blamed.unique (h : Blamed d part n c) (h' : Blamed d part' n' c') :
    part = part' ∧ n = n' ∧ c = c' := by
  cases h with
  | push hunpacks =>
      cases h' with
      | push hunpacks' =>
          obtain ⟨-, htail⟩ := List.cons.inj (hunpacks.unique hunpacks')
          obtain rfl := (List.cons.inj htail).1
          exact ⟨rfl, rfl, rfl⟩
      | whole hnot => exact absurd hunpacks (hnot _)
  | whole hnot =>
      cases h' with
      | push hunpacks => exact absurd hunpacks (hnot _)
      | whole hnot' => exact ⟨rfl, rfl, rfl⟩

/-- An element takes no more calls than what unpacks into it, and has no longer integers. -/
theorem calls_le_of_unpacks {xs : List Datum} (h : Unpacks d xs) {x : Datum} (hx : x ∈ xs) :
    x.calls ≤ d.calls ∧ (d.ShortInts → x.ShortInts) := by
  cases h with
  | list items | tuple items =>
      refine ⟨Nat.le_succ_of_le (Datum.calls_le_mostCalls hx), ?_⟩
      intro hshort
      exact Datum.allShortInts_iff.mp hshort x hx
  | text s =>
      obtain ⟨a, -, rfl⟩ := List.mem_map.mp hx
      exact ⟨Nat.le_refl 1, fun _ => trivial⟩

/-- What is blamed is a part of the datum, and it is of an unknown instruction. -/
theorem Blamed.of_part (h : Blamed d part n c) :
    (part.calls ≤ d.calls ∧ (d.ShortInts → part.ShortInts)) ∧
      Datum.shownLimit - Datum.fieldCalls ≤ n ∧ ∃ shown, c = .unknownInstruction shown := by
  cases h with
  | push hunpacks =>
      have hpart := calls_le_of_unpacks hunpacks (List.mem_cons_of_mem _ List.mem_cons_self)
      exact ⟨hpart, Nat.le_refl _, _, rfl⟩
  | whole hnot => exact ⟨⟨Nat.le_refl _, id⟩, Nat.sub_le _ _, _, rfl⟩

/-- Two elements are taken from whatever unpacks into two. -/
theorem pair?_eq_some_iff : pair? d = some (first, second) ↔ Unpacks d [first, second] := by
  constructor
  · intro h
    unfold pair? at h
    split at h
    · obtain ⟨rfl, rfl⟩ := Prod.mk.inj (Option.some.inj h)
      exact .list _
    · obtain ⟨rfl, rfl⟩ := Prod.mk.inj (Option.some.inj h)
      exact .tuple _
    · rename_i s
      split at h
      · rename_i a b hs
        obtain ⟨rfl, rfl⟩ := Prod.mk.inj (Option.some.inj h)
        have hunpacks := Unpacks.text s
        rwa [hs] at hunpacks
      · cases h
    · cases h
  · intro h
    generalize hitems : [first, second] = items at h
    cases h with
    | list items =>
        rw [← hitems]
        rfl
    | tuple items =>
        rw [← hitems]
        rfl
    | text s =>
        have htwo : s.toList.length = 2 := by
          rw [← List.length_map, ← hitems]
          rfl
        obtain ⟨a, b, hs⟩ := List.length_eq_two.mp htwo
        rw [hs] at hitems
        obtain ⟨rfl, htail⟩ := List.cons.inj hitems
        obtain ⟨rfl, -⟩ := List.cons.inj htail
        simp only [pair?, hs]

theorem instr_push (h : Unpacks d [.text "push", operand]) : instr d = Instr.pushOf operand := by
  rw [instr, pair?_eq_some_iff.mpr h]
  rfl

theorem instr_apply (h : Unpacks d [.text "apply", operand]) :
    instr d = match operand.operator? with
      | some op => .ok (.apply op)
      | none => .error (.unknownInstruction d.shown) := by
  rw [instr, pair?_eq_some_iff.mpr h]
  rfl

/-- A datum that unpacks into nothing with a known tag is refused as a whole. -/
theorem instr_not_tagged (hpush : ∀ operand, ¬ Unpacks d [.text "push", operand])
    (happly : ∀ operand, ¬ Unpacks d [.text "apply", operand]) :
    instr d = .error (.unknownInstruction d.shown) := by
  unfold instr
  split
  · rename_i tag operand hpair
    have hunpacks := pair?_eq_some_iff.mp hpair
    split
    · rename_i htag
      rw [eq_of_beq htag] at hunpacks
      exact absurd hunpacks (hpush operand)
    · split
      · rename_i htag
        rw [eq_of_beq htag] at hunpacks
        exact absurd hunpacks (happly operand)
      · rfl
  · rfl

/-- A datum is valid and states an instruction, or it is blamed. -/
theorem instr_cases (d : Datum) :
    (Valid d ∧ ∃ i, instr d = .ok i) ∨
      (¬ Valid d ∧ ∃ part n c, instr d = .error c ∧ Blamed d part n c) := by
  by_cases hpush : ∃ operand, Unpacks d [.text "push", operand]
  · obtain ⟨operand, hunpacks⟩ := hpush
    rw [valid_iff_fits hunpacks, fits_push_iff, instr_push hunpacks, Instr.pushOf]
    cases operand.real? with
    | ok x => exact .inl ⟨⟨x, rfl⟩, _, rfl⟩
    | error why =>
        refine .inr ⟨?_, _, _, _, rfl, .push hunpacks⟩
        rintro ⟨x, hx⟩
        cases hx
  · have hwhole := Blamed.whole (not_exists.mp hpush)
    by_cases happly : ∃ operand, Unpacks d [.text "apply", operand]
    · obtain ⟨operand, hunpacks⟩ := happly
      rw [valid_iff_fits hunpacks, fits_apply_iff, instr_apply hunpacks]
      cases operand.operator? with
      | some op => exact .inl ⟨⟨op, rfl⟩, _, rfl⟩
      | none =>
          refine .inr ⟨?_, _, _, _, rfl, hwhole⟩
          rintro ⟨op, hop⟩
          cases hop
    · have hwholeError := instr_not_tagged (not_exists.mp hpush) (not_exists.mp happly)
      refine .inr ⟨?_, _, _, _, hwholeError, hwhole⟩
      rintro ⟨tag, operand, hunpacks, hfits⟩
      rcases hfits.tag_eq with rfl | rfl
      · exact hpush ⟨operand, hunpacks⟩
      · exact happly ⟨operand, hunpacks⟩

/-- What is blamed is what has to be shown. -/
theorem Blamed.shownFault?_eq (h : Blamed d part n c) : shownFault? d = part.shownFault? n := by
  cases h with
  | push hunpacks =>
      rw [shownFault?, pair?_eq_some_iff.mpr hunpacks]
      rfl
  | whole hnot =>
      unfold shownFault?
      split
      · rename_i tag operand hpair
        split
        · rename_i htag
          have hunpacks := pair?_eq_some_iff.mp hpair
          rw [eq_of_beq htag] at hunpacks
          exact absurd hunpacks (hnot operand)
        · rfl
      · rfl

/-- A datum is read just if it is valid. -/
theorem exists_read_iff : (∃ i, read d = .ok i) ↔ Valid d := by
  simp only [read_eq_ok_iff]
  rcases instr_cases d with ⟨hvalid, hstates⟩ | ⟨hnot, part, n, c, hc, -⟩
  · exact iff_of_true hstates hvalid
  · exact iff_of_false (by simp [hc]) hnot

theorem read_eq_error_iff : read d = .error f ↔ ¬ Valid d ∧ Refused d f := by
  rcases instr_cases d with ⟨hvalid, i, hi⟩ | ⟨hnot, part, n, c, hc, hblamed⟩
  · exact iff_of_false (by simp [read, hi]) fun h => h.1 hvalid
  · have hread : read d = .error ((part.shownFault? n).getD (.complaint c)) := by
      rw [read, hc, hblamed.shownFault?_eq]
    rw [hread]
    constructor
    · intro h
      refine ⟨hnot, ?_⟩
      rw [← Except.error.inj h]
      cases hfault : part.shownFault? n with
      | none => exact .shown hblamed hfault
      | some f' => exact .unshown hblamed hfault
    · rintro ⟨-, hrefused⟩
      cases hrefused with
      | shown hblamed' hshown =>
          obtain ⟨rfl, rfl, rfl⟩ := hblamed.unique hblamed'
          rw [hshown]
          rfl
      | unshown hblamed' hfault =>
          obtain ⟨rfl, rfl, rfl⟩ := hblamed.unique hblamed'
          rw [hfault]
          rfl

/-- With short integers a datum is refused by the complaint, or because it is nested too deeply to
be shown. -/
theorem Refused.of_shortInts (h : Refused d f) (hshort : d.ShortInts) :
    (∃ shown, f = .complaint (.unknownInstruction shown)) ∨
      f = .nestsTooDeeply ∧ Datum.shownLimit - Datum.fieldCalls < d.calls := by
  cases h with
  | shown hblamed hshown =>
      obtain ⟨-, -, shown, rfl⟩ := hblamed.of_part
      exact .inl ⟨shown, rfl⟩
  | @unshown part n c _ hblamed hfault =>
      obtain ⟨⟨hcalls, hpart⟩, hroom, -⟩ := hblamed.of_part
      rw [Datum.shownFault?_of_shortInts (hpart hshort)] at hfault
      by_cases hle : part.calls ≤ n
      · rw [if_pos hle] at hfault
        cases hfault
      · rw [if_neg hle] at hfault
        refine .inr ⟨(Option.some.inj hfault).symm, ?_⟩
        omega

/-! ### Records of lines -/

/-- What a line states can be shown, whatever it is refused for. -/
theorem shownFault?_toDatum_of_ofLine (h : ofLine line = .ok r) :
    shownFault? r.toDatum = none := by
  have hwritten : ∀ tag operand, (operand.shownFault? (Datum.shownLimit - Datum.fieldCalls) = none ∧
      (Datum.tuple [.text tag, operand]).shownFault? Datum.shownLimit = none) →
      shownFault? (.tuple [.text tag, operand]) = none := by
    rintro tag operand ⟨hpush, hwhole⟩
    simp only [shownFault?, pair?, hpush, hwhole, ite_self]
  revert h
  fun_cases ofLine line with
  | case1 mnemonic operand hwords tag htag x hx =>
      intro h
      obtain rfl := Except.ok.inj h
      exact hwritten _ _ ⟨rfl, rfl⟩
  | case2 => rintro ⟨⟩
  | case3 mnemonic operand hwords tag htag =>
      intro h
      obtain rfl := Except.ok.inj h
      exact hwritten _ _ ⟨rfl, rfl⟩
  | case4 => rintro ⟨⟩

/-- So reading the record of a line fails with a complaint only. -/
theorem read_toDatum_of_ofLine (h : ofLine line = .ok r) :
    read r.toDatum = (instr r.toDatum).mapError .complaint := by
  rw [read, shownFault?_toDatum_of_ofLine h]
  cases instr r.toDatum with
  | ok i => rfl
  | error c => rfl

end Record

namespace Program

open Record (Valid Refused)

variable {ds : List Datum} {f : Failure}

/-- Going through the data fails at the first one that is not valid. -/
theorem rebuild_eq_error_iff :
    rebuild ds = .error f ↔ ∃ before d after, ds = before ++ d :: after ∧
      (∀ d ∈ before, Valid d) ∧ ¬ Valid d ∧ Refused d f := by
  have hmap : rebuild ds = .error f ↔ ds.mapM Record.read = .error f := by
    constructor
    · exact eq_error_of_map
    · intro h
      rw [rebuild, h]
      rfl
  simp only [hmap, mapM_eq_error_iff, Record.exists_read_iff, Record.read_eq_error_iff]

/-- The records of lines are rebuilt as if everything could be shown. -/
theorem rebuild_of_lines {rs : List Record} (h : ∀ r ∈ rs, ∃ line, Record.ofLine line = .ok r) :
    rebuild (rs.map Record.toDatum) =
      (ofRecords (rs.map Record.toDatum)).mapError .complaint := by
  have hread : (rs.map Record.toDatum).mapM Record.read =
      ((rs.map Record.toDatum).mapM Record.instr).mapError .complaint := by
    induction rs with
    | nil => rfl
    | cons r rs ih =>
        obtain ⟨⟨line, hline⟩, hrs⟩ := List.forall_mem_cons.mp h
        rw [List.map_cons, List.mapM_cons, List.mapM_cons, Record.read_toDatum_of_ofLine hline,
          ih hrs]
        cases Record.instr r.toDatum with
        | error c => rfl
        | ok i => cases (rs.map Record.toDatum).mapM Record.instr <;> rfl
  rw [rebuild, ofRecords, hread]
  cases (rs.map Record.toDatum).mapM Record.instr <;> rfl

/-- Main result: a program is rebuilt from data exactly if all of them are valid, and otherwise the
first one that is not decides the failure.  This is the complaint of an unknown instruction, unless
what it blames cannot be shown; and if no integer is too long to be written, then only because the
datum is nested too deeply. -/
theorem rebuild_validates (ds : List Datum) :
    ((∃ p, rebuild ds = .ok p) ↔ ∀ d ∈ ds, Valid d) ∧
      (∀ f, rebuild ds = .error f ↔ ∃ before d after, ds = before ++ d :: after ∧
        (∀ d ∈ before, Valid d) ∧ ¬ Valid d ∧ Refused d f) ∧
      ∀ f, (∀ d ∈ ds, d.ShortInts) → rebuild ds = .error f →
        (∃ shown, f = .complaint (.unknownInstruction shown)) ∨
          f = .nestsTooDeeply ∧ ∃ d ∈ ds, Datum.shownLimit - Datum.fieldCalls < d.calls := by
  refine ⟨⟨?_, ?_⟩, fun f => rebuild_eq_error_iff, ?_⟩
  · rintro ⟨p, hp⟩
    obtain ⟨is, his, rfl⟩ := rebuild_eq_ok_iff.mp hp
    have hvalid := his.imp fun d i hi =>
      And.intro (Record.exists_read_iff.mp ⟨i, Record.read_eq_ok_iff.mpr hi⟩) hi
    exact ((List.forall₂_and_left _ _).mp hvalid).1
  · intro hvalid
    cases hds : rebuild ds with
    | ok p => exact ⟨p, rfl⟩
    | error f =>
        obtain ⟨before, d, after, rfl, -, hnot, -⟩ := rebuild_eq_error_iff.mp hds
        exact absurd (hvalid d (by simp)) hnot
  · intro f hshort hf
    obtain ⟨before, d, after, rfl, -, -, hrefused⟩ := rebuild_eq_error_iff.mp hf
    have hd : d ∈ before ++ d :: after := by simp
    rcases hrefused.of_shortInts (hshort d hd) with hshown | ⟨hdeep, hcalls⟩
    · exact .inl hshown
    · exact .inr ⟨hdeep, d, hd, hcalls⟩

/-- A symbol that is no operator's is met before a datum that does not unpack at all. -/
theorem rebuild_validates_unknown_symbol :
    rebuild [.tuple [.text "push", .float 2], .list [.text "apply", .text "%"], .absent] =
      .error (.complaint (.unknownInstruction "['apply', '%']")) := by
  have hunpacks := Datum.Unpacks.list [.text "apply", .text "%"]
  have hnot : ¬ Valid (.list [.text "apply", .text "%"]) := by
    rw [Record.valid_iff_fits hunpacks, Record.fits_apply_iff]
    rintro ⟨op, ⟨⟩⟩
  have hblamed : Record.Blamed (.list [.text "apply", .text "%"])
      (.list [.text "apply", .text "%"]) Datum.shownLimit
      (.unknownInstruction (Datum.list [.text "apply", .text "%"]).shown) := by
    refine .whole fun operand h => ?_
    have htag := (List.cons.inj (hunpacks.unique h)).1
    exact absurd (Datum.text.inj htag) (by decide)
  have hshown : (Datum.list [.text "apply", .text "%"]).shown = "['apply', '%']" := by
    decide +kernel
  rw [← hshown]
  refine ((rebuild_validates _).2.1 _).mpr
    ⟨[.tuple [.text "push", .float 2]], _, [.absent], rfl, ?_, hnot, .shown hblamed rfl⟩
  exact List.forall_mem_singleton.mpr ⟨"push", .float 2, .tuple _, .float 2⟩

/-- A push of the tree of a sum of 336 ones is not valid, and is refused because the tree is too
high to be shown in a complaint. -/
theorem rebuild_high_tree :
    ¬ Valid (.tuple [.text "push", .expr (Expr.chain 1 (List.replicate 335 (.add, 1)))]) ∧
      rebuild [.tuple [.text "push", .expr (Expr.chain 1 (List.replicate 335 (.add, 1)))]] =
        .error .nestsTooDeeply := by
  have hunpacks := Datum.Unpacks.tuple
    [.text "push", .expr (Expr.chain 1 (List.replicate 335 (.add, 1)))]
  have hnot : ¬ Valid
      (.tuple [.text "push", .expr (Expr.chain 1 (List.replicate 335 (.add, 1)))]) := by
    rw [Record.valid_iff_fits hunpacks, Record.fits_push_iff]
    rintro ⟨x, ⟨⟩⟩
  have hfault : (Datum.expr (Expr.chain 1 (List.replicate 335 (.add, 1)))).shownFault?
      (Datum.shownLimit - Datum.fieldCalls) = some .nestsTooDeeply := by
    simp only [Datum.shownFault?, Expr.height_chain, List.length_replicate]
    rfl
  refine ⟨hnot, rebuild_eq_error_iff.mpr ⟨[], _, [], rfl, List.forall_mem_nil _, hnot, ?_⟩⟩
  exact .unshown (.push hunpacks) hfault

end Program

end Calculator
