import Calculator.Machine
import Calculator.Program.Record
import Calculator.Proofs.Action.Binding
import Calculator.Proofs.Machine.Reassembly
import Mathlib.Data.List.Forall2

/-!
Records of programs.  A program of plain instructions, and of refined ones that keep their tags and
operands, is rebuilt from its records with every instruction made plain, and a plain instruction
does what the refined one did.  Data that are accepted as records are written back in a normal form:
the tag is kept, the number of a push becomes a double, and the operator of an application its
symbol.
-/
namespace Calculator

/-- Going through a list succeeds if every element is answered, and then gives the answers. -/
theorem mapM_eq_ok_iff {ε α β : Type} {f : α → Except ε β} {as : List α} {bs : List β} :
    as.mapM f = .ok bs ↔ List.Forall₂ (fun a b => f a = .ok b) as bs := by
  constructor
  · intro h
    induction as generalizing bs with
    | nil =>
        obtain rfl := Except.ok.inj h
        exact .nil
    | cons a as ih =>
        rw [List.mapM_cons] at h
        cases ha : f a with
        | error e =>
            rw [ha] at h
            cases h
        | ok b =>
            cases has : as.mapM f with
            | error e =>
                rw [ha, has] at h
                cases h
            | ok bs' =>
                rw [ha, has] at h
                obtain rfl := Except.ok.inj h
                exact .cons ha (ih has)
  · intro h
    induction h with
    | nil => rfl
    | cons ha _ ih =>
        rw [List.mapM_cons, ha, ih]
        rfl

/-- Going through a list fails at the first element that is not answered. -/
theorem mapM_eq_error_iff {ε α β : Type} {f : α → Except ε β} {as : List α} {e : ε} :
    as.mapM f = .error e ↔ ∃ before a after, as = before ++ a :: after ∧
      (∀ a ∈ before, ∃ b, f a = .ok b) ∧ f a = .error e := by
  constructor
  · intro h
    induction as with
    | nil => cases h
    | cons a as ih =>
        rw [List.mapM_cons] at h
        cases ha : f a with
        | error e' =>
            rw [ha] at h
            obtain rfl := Except.error.inj h
            exact ⟨[], a, as, rfl, List.forall_mem_nil _, ha⟩
        | ok b =>
            cases has : as.mapM f with
            | error e' =>
                rw [ha, has] at h
                obtain rfl := Except.error.inj h
                obtain ⟨before, a', after, rfl, hbefore, hrefused⟩ := ih has
                exact ⟨a :: before, a', after, rfl,
                  List.forall_mem_cons.mpr ⟨⟨b, ha⟩, hbefore⟩, hrefused⟩
            | ok bs =>
                rw [ha, has] at h
                cases h
  · rintro ⟨before, a, after, rfl, hbefore, ha⟩
    induction before with
    | nil =>
        rw [List.nil_append, List.mapM_cons, ha]
        rfl
    | cons a' before ih =>
        obtain ⟨⟨b, hb⟩, hrest⟩ := List.forall_mem_cons.mp hbefore
        rw [List.cons_append, List.mapM_cons, hb, ih hrest]
        rfl

/-- What is made of the answers is made just if every element is answered. -/
theorem map_mapM_eq_ok_iff {ε α β γ : Type} {f : α → Except ε β} {g : List β → γ} {as : List α}
    {c : γ} : (as.mapM f).map g = .ok c ↔
      ∃ bs, List.Forall₂ (fun a b => f a = .ok b) as bs ∧ c = g bs := by
  constructor
  · intro h
    obtain ⟨bs, hbs, rfl⟩ := exists_of_map_eq_ok h
    exact ⟨bs, mapM_eq_ok_iff.mp hbs, rfl⟩
  · rintro ⟨bs, hbs, rfl⟩
    rw [mapM_eq_ok_iff.mpr hbs]
    rfl

namespace Operator

/-- The operator of a symbol is written as the symbol again. -/
theorem text_of_ofSymbol? {s : String} {op : Operator} (h : ofSymbol? s = some op) :
    op.text = s := by
  have hfound := List.find?_some h
  exact eq_of_beq hfound

end Operator

namespace Instr

/-- The plain instruction that an instruction refines; a plain one refines itself. -/
def plain : Instr → Instr
  | derivedPush _ _ _ x => push x
  | derivedApply _ _ _ op => apply op
  | i => i

/-- The instruction is plain, or a refined one with the tag of the plain one and an operand that
stands for what it pushes or applies: the number or the symbol itself, or what is accepted for
it. -/
inductive KeepsRecord : Instr → Prop where
  | push (x : Float) : KeepsRecord (.push x)
  | apply (op : Operator) : KeepsRecord (.apply op)
  | derivedPush (kind : String) {operand : Datum} {x : Float} (hoperand : operand.real? = .ok x) :
      KeepsRecord (.derivedPush kind (.text pushTag) (.ok operand) x)
  | derivedApply (kind : String) {operand : Datum} {op : Operator}
      (hoperand : operand.operator? = some op) :
      KeepsRecord (.derivedApply kind (.text applyTag) (.ok operand) op)

theorem Exact.plain_eq {i : Instr} (h : i.Exact) : i.plain = i := by
  cases h with
  | push x => rfl
  | apply op => rfl

theorem Exact.keepsRecord {i : Instr} (h : i.Exact) : i.KeepsRecord := by
  cases h with
  | push x => exact .push x
  | apply op => exact .apply op

end Instr

namespace Stack

variable {i : Instr} {is : List Instr}

/-- A refined instruction does what the plain one does, and fails as that fails. -/
theorem step_plain (s : Stack) (h : i.KeepsRecord) :
    s.step (.instr i.plain) = s.step (.instr i) := by
  cases h <;> rfl

theorem steps_plain (s : Stack) (h : ∀ i ∈ is, i.KeepsRecord) :
    s.steps ((is.map Instr.plain).map .instr) = s.steps (is.map .instr) := by
  induction is generalizing s with
  | nil => rfl
  | cons i is ih =>
      obtain ⟨hi, his⟩ := List.forall_mem_cons.mp h
      simp only [List.map_cons, steps, step_plain s hi]
      cases s.step (.instr i) with
      | ok t => exact ih t his
      | error e => rfl

theorem run_plain (s : Stack) (h : ∀ i ∈ is, i.KeepsRecord) :
    s.run (Program.ofInstrs (is.map Instr.plain)) = s.run (Program.ofInstrs is) := by
  simp only [run, Program.ofInstrs, steps_plain _ h]

end Stack

namespace Record

variable {d operand : Datum} {i : Instr} {r : Record} {tag : String}

/-- The datum is a list or a tuple of two elements. -/
inductive IsPair : Datum → Datum → Datum → Prop where
  | list (first second : Datum) : IsPair (.list [first, second]) first second
  | tuple (first second : Datum) : IsPair (.tuple [first, second]) first second

/-- The record that a datum states, in normal form. -/
inductive Normal (d : Datum) : Record → Prop where
  | float {x : Float} (hpair : IsPair d (.text "push") (.float x)) :
      Normal d ⟨.text "push", .float x⟩
  /-- An integer becomes the nearest double, which must be finite. -/
  | int {n : Int} {x : Float} (hpair : IsPair d (.text "push") (.int n))
      (hx : Binary64.ofInt? n = some x) : Normal d ⟨.text "push", .float x⟩
  | symbol {op : Operator} (hpair : IsPair d (.text "apply") (.text op.text)) :
      Normal d ⟨.text "apply", .text op.text⟩
  | operator {op : Operator} (hpair : IsPair d (.text "apply") (.operator op)) :
      Normal d ⟨.text "apply", .text op.text⟩

/-! ### Instructions as records -/

/-- The record of an instruction that keeps it states the plain instruction. -/
theorem exists_ofItem (h : i.KeepsRecord) :
    ∃ r, ofItem (.instr i) = .ok r ∧ i.plain.Exact ∧ instr r.toDatum = .ok i.plain := by
  cases h with
  | push x => exact ⟨_, rfl, .push x, rfl⟩
  | apply op => exact ⟨_, rfl, .apply op, by cases op <;> rfl⟩
  | @derivedPush kind operand x hoperand =>
      have hpush : Instr.pushOf operand = .ok (.push x) := by
        rw [Instr.pushOf, hoperand]
      exact ⟨⟨.text Instr.pushTag, operand⟩, rfl, .push x, hpush⟩
  | @derivedApply kind operand op hoperand =>
      refine ⟨⟨.text Instr.applyTag, operand⟩, rfl, .apply op, ?_⟩
      have htag : (Instr.applyTag == Instr.pushTag) = false := by decide
      simp only [instr, toDatum, pair?, htag, hoperand, beq_self_eq_true, Bool.false_eq_true,
        ↓reduceIte]
      rfl

/-- Only instructions have records. -/
theorem exists_instr_of_ofItem (h : ofItem d = .ok r) : ∃ i : Instr, d = .instr i := by
  cases d with
  | instr i => exact ⟨i, rfl⟩
  | _ => cases h

/-- Reading a datum that is accepted needs no text of it. -/
theorem read_eq_ok_iff : read d = .ok i ↔ instr d = .ok i := by
  rw [read]
  cases instr d with
  | ok j => simp
  | error c => simp

/-! ### Records that are accepted -/

/-- The two characters of a text are no tag with an operand: a tag is longer. -/
theorem isPair_of_pair? (h : pair? d = some (.text tag, operand)) (htag : tag.toList.length ≠ 1) :
    IsPair d (.text tag) operand := by
  unfold pair? at h
  split at h
  · obtain ⟨rfl, rfl⟩ := Prod.mk.inj (Option.some.inj h)
    exact .list _ _
  · obtain ⟨rfl, rfl⟩ := Prod.mk.inj (Option.some.inj h)
    exact .tuple _ _
  · split at h
    · obtain ⟨hsingle, -⟩ := Prod.mk.inj (Option.some.inj h)
      rw [← Datum.text.inj hsingle] at htag
      simp at htag
    · cases h
  · cases h

theorem normal_of_real? {x : Float} (hpair : IsPair d (.text "push") operand)
    (h : operand.real? = .ok x) : Normal d ⟨.text "push", .float x⟩ := by
  -- the cases of the function keep the conversion of an integer folded
  revert h
  fun_cases Datum.real? operand with
  | case1 y =>
      intro h
      obtain rfl := Except.ok.inj h
      exact .float hpair
  | case2 n y hy =>
      intro h
      obtain rfl := Except.ok.inj h
      exact .int hpair hy
  | case3 => rintro ⟨⟩
  | case4 => rintro ⟨⟩

/-- What is accepted as a push is a number. -/
theorem normal_of_pushOf (hpair : IsPair d (.text "push") operand)
    (h : Instr.pushOf operand = .ok i) :
    ∃ x, i = .push x ∧ Normal d ⟨.text "push", .float x⟩ := by
  unfold Instr.pushOf at h
  split at h
  · rename_i x hx
    exact ⟨x, (Except.ok.inj h).symm, normal_of_real? hpair hx⟩
  · cases h

/-- What is accepted as an operator is one, or its symbol. -/
theorem normal_of_operator? {op : Operator} (hpair : IsPair d (.text "apply") operand)
    (h : operand.operator? = some op) : Normal d ⟨.text "apply", .text op.text⟩ := by
  unfold Datum.operator? at h
  split at h
  · obtain rfl := Option.some.inj h
    exact .operator hpair
  · rw [← Operator.text_of_ofSymbol? h] at hpair
    exact .symbol hpair
  · cases h

/-- The record of an instruction that a datum states is the datum in normal form. -/
theorem normal_of_instr (h : instr d = .ok i) :
    i.Exact ∧ ∃ r, ofItem (.instr i) = .ok r ∧ Normal d r := by
  unfold instr at h
  split at h
  · rename_i tag operand hpair
    split at h
    · rename_i htag
      obtain rfl : tag = "push" := eq_of_beq htag
      obtain ⟨x, rfl, hnormal⟩ := normal_of_pushOf (isPair_of_pair? hpair (by decide)) h
      exact ⟨.push x, _, rfl, hnormal⟩
    · split at h
      · rename_i htag
        obtain rfl : tag = "apply" := eq_of_beq htag
        split at h
        · rename_i op hop
          obtain rfl := Except.ok.inj h
          have hnormal := normal_of_operator? (isPair_of_pair? hpair (by decide)) hop
          exact ⟨.apply op, _, rfl, hnormal⟩
        · cases h
      · cases h
  · cases h

end Record

namespace Program

variable {p : Program} {ds : List Datum} {rs : List Record}

/-- A program of records has just the instructions that the records state. -/
theorem ofRecords_eq_ok_iff :
    ofRecords ds = .ok p ↔
      ∃ is, List.Forall₂ (fun d i => Record.instr d = .ok i) ds is ∧ p = ofInstrs is :=
  map_mapM_eq_ok_iff

/-- So has a program that is rebuilt. -/
theorem rebuild_eq_ok_iff :
    rebuild ds = .ok p ↔
      ∃ is, List.Forall₂ (fun d i => Record.instr d = .ok i) ds is ∧ p = ofInstrs is := by
  rw [rebuild, map_mapM_eq_ok_iff]
  simp only [Record.read_eq_ok_iff]

/-- Instructions that keep their records have records, which state the plain instructions. -/
theorem exists_records {is : List Instr} (h : ∀ i ∈ is, i.KeepsRecord) :
    ∃ rs, (ofInstrs is).records = .ok rs ∧
      rebuild (rs.map Record.toDatum) = .ok (ofInstrs (is.map Instr.plain)) := by
  suffices ∃ rs, List.Forall₂ (fun d r => Record.ofItem d = .ok r) (is.map .instr) rs ∧
      List.Forall₂ (fun d i => Record.instr d = .ok i) (rs.map Record.toDatum)
        (is.map Instr.plain) by
    obtain ⟨rs, hrecords, hstated⟩ := this
    exact ⟨rs, mapM_eq_ok_iff.mpr hrecords, rebuild_eq_ok_iff.mpr ⟨_, hstated, rfl⟩⟩
  induction is with
  | nil => exact ⟨[], .nil, .nil⟩
  | cons i is ih =>
      obtain ⟨hi, his⟩ := List.forall_mem_cons.mp h
      obtain ⟨r, hitem, -, hstates⟩ := Record.exists_ofItem hi
      obtain ⟨rs, hrecords, hstated⟩ := ih his
      exact ⟨r :: rs, .cons hitem hrecords, .cons hstates hstated⟩

/-- Only programs of instructions have records, and as many as instructions. -/
theorem exists_instrs_of_records (h : p.records = .ok rs) :
    ∃ is, p = ofInstrs is ∧ is.length = rs.length := by
  obtain ⟨ds⟩ := p
  have hitems : List.Forall₂ (fun d r => Record.ofItem d = .ok r) ds rs := mapM_eq_ok_iff.mp h
  clear h
  induction hitems with
  | nil => exact ⟨[], rfl, rfl⟩
  | cons hitem _ ih =>
      obtain ⟨i, rfl⟩ := Record.exists_instr_of_ofItem hitem
      obtain ⟨is, hds, hlength⟩ := ih
      obtain rfl := Program.mk.inj hds
      exact ⟨i :: is, rfl, congrArg Nat.succ hlength⟩

/-- Whatever is rebuilt from the records of a program is as long as the program. -/
theorem size_of_rebuild_records (h : p.records = .ok rs) {q : Program}
    (hq : rebuild (rs.map Record.toDatum) = .ok q) : q.size = p.size := by
  obtain ⟨is, rfl, hlength⟩ := exists_instrs_of_records h
  obtain ⟨js, hjs, rfl⟩ := rebuild_eq_ok_iff.mp hq
  have hsame := hjs.length_eq
  rw [List.length_map] at hsame
  simp only [size, ofInstrs, List.length_map, ← hsame, hlength]

/-- A program that is rebuilt has the data in normal form as its records. -/
theorem exists_records_of_rebuild (h : rebuild ds = .ok p) :
    ∃ rs, p.records = .ok rs ∧ List.Forall₂ Record.Normal ds rs ∧
      ∃ is, p = ofInstrs is ∧ ∀ i ∈ is, i.Exact := by
  obtain ⟨is, his, rfl⟩ := rebuild_eq_ok_iff.mp h
  clear h
  suffices ∃ rs, List.Forall₂ (fun d r => Record.ofItem d = .ok r) (is.map .instr) rs ∧
      List.Forall₂ Record.Normal ds rs ∧ ∀ i ∈ is, i.Exact by
    obtain ⟨rs, hrecords, hnormal, hexact⟩ := this
    exact ⟨rs, mapM_eq_ok_iff.mpr hrecords, hnormal, is, rfl, hexact⟩
  induction his with
  | nil => exact ⟨[], .nil, .nil, List.forall_mem_nil _⟩
  | cons hstates _ ih =>
      obtain ⟨hi, r, hitem, hr⟩ := Record.normal_of_instr hstates
      obtain ⟨rs, hrecords, hnormal, his⟩ := ih
      exact ⟨r :: rs, .cons hitem hrecords, .cons hr hnormal, List.forall_mem_cons.mpr ⟨hi, his⟩⟩

theorem map_plain_of_exact {is : List Instr} (h : ∀ i ∈ is, i.Exact) :
    is.map Instr.plain = is :=
  (List.map_congr_left fun i hi => (h i hi).plain_eq).trans (List.map_id _)

/-- The records of a program of plain instructions state just this program. -/
theorem rebuild_of_exact {is : List Instr} (h : (ofInstrs is).records = .ok rs)
    (hexact : ∀ i ∈ is, i.Exact) : rebuild (rs.map Record.toDatum) = .ok (ofInstrs is) := by
  obtain ⟨rs', hrecords, hrebuild⟩ := exists_records fun i hi => (hexact i hi).keepsRecord
  obtain rfl := Except.ok.inj (h.symm.trans hrecords)
  rwa [map_plain_of_exact hexact] at hrebuild

/-- Main result: a program of instructions that keep their records has records and is rebuilt from
them with all instructions made plain, so it runs as before, on every stack.  Whatever program has
records, what is rebuilt from them is as long as it.  Data that are accepted as records are the
records of a program in another form, and their normal form is accepted as the same program. -/
theorem rebuild_records :
    (∀ is : List Instr, (∀ i ∈ is, i.KeepsRecord) →
      ∃ rs q, (ofInstrs is).records = .ok rs ∧ rebuild (rs.map Record.toDatum) = .ok q ∧
        q.size = (ofInstrs is).size ∧ (∀ s : Stack, s.run q = s.run (ofInstrs is)) ∧
        ((∀ i ∈ is, i.Exact) → q = ofInstrs is)) ∧
      (∀ (p q : Program) (rs : List Record), p.records = .ok rs →
        rebuild (rs.map Record.toDatum) = .ok q → q.size = p.size) ∧
      ∀ (ds : List Datum) (p : Program), rebuild ds = .ok p →
        ∃ rs, p.records = .ok rs ∧ List.Forall₂ Record.Normal ds rs ∧
          rebuild (rs.map Record.toDatum) = .ok p := by
  refine ⟨?_, ?_, ?_⟩
  · intro is hkeeps
    obtain ⟨rs, hrecords, hrebuild⟩ := exists_records hkeeps
    refine ⟨rs, _, hrecords, hrebuild, size_of_rebuild_records hrecords hrebuild,
      fun s => s.run_plain hkeeps, ?_⟩
    intro hexact
    rw [map_plain_of_exact hexact]
  · intro p q rs hrecords hrebuild
    exact size_of_rebuild_records hrecords hrebuild
  · intro ds p h
    obtain ⟨rs, hrecords, hnormal, is, rfl, hexact⟩ := exists_records_of_rebuild h
    exact ⟨rs, hrecords, hnormal, rebuild_of_exact hrecords hexact⟩

/-- A traced push becomes a plain one, and an integer and an operator itself are accepted. -/
theorem rebuild_records_traced_push :
    (∃ q, rebuild [.tuple [.text "push", .float 2], .tuple [.text "push", .float 3],
        .tuple [.text "apply", .text "+"]] = .ok q ∧
      ∀ s : Stack, s.run q = s.run (ofInstrs [.keptPush "Traced" 2, .push 3, .apply .add])) ∧
      ∃ p rs, rebuild [.list [.text "push", .int 2], .tuple [.text "push", .float 3],
          .tuple [.text "apply", .operator .add]] = .ok p ∧
        p.records = .ok rs ∧ rebuild (rs.map Record.toDatum) = .ok p := by
  refine ⟨?_, ?_⟩
  · have hkeeps : ∀ i ∈ [Instr.keptPush "Traced" 2, .push 3, .apply .add], i.KeepsRecord := by
      simp only [List.forall_mem_cons]
      exact ⟨.derivedPush _ rfl, .push 3, .apply .add, List.forall_mem_nil _⟩
    obtain ⟨rs, q, hrecords, hrebuild, -, hrun, -⟩ := rebuild_records.1 _ hkeeps
    obtain rfl := Except.ok.inj hrecords
    exact ⟨q, hrebuild, hrun⟩
  · have haccepted : (rebuild [.list [.text "push", .int 2], .tuple [.text "push", .float 3],
        .tuple [.text "apply", .operator .add]]).isOk = true := by decide +kernel
    cases hp : rebuild [.list [.text "push", .int 2], .tuple [.text "push", .float 3],
        .tuple [.text "apply", .operator .add]] with
    | error e =>
        rw [hp] at haccepted
        cases haccepted
    | ok p =>
        obtain ⟨rs, hrs, -, hsame⟩ := rebuild_records.2.2 _ _ hp
        exact ⟨p, rs, rfl, hrs, hsame⟩

/-- An instruction of another kind may have a record all the same: with a tag that is no mnemonic it
is not rebuilt, and as the record of a push it is rebuilt as a push, which runs where it did not. -/
theorem rebuild_foreign_records :
    ((⟨[.instr (.foreign "Halt()" (.text "halt") (.ok .absent))]⟩ : Program).records =
        .ok [⟨.text "halt", .absent⟩] ∧
      rebuild ([⟨.text "halt", .absent⟩].map Record.toDatum) =
        .error (.complaint (.unknownInstruction "('halt', None)"))) ∧
    (⟨[.instr (.foreign "Halt()" (.text "push") (.ok (.float 1)))]⟩ : Program).records =
        .ok [⟨.text "push", .float 1⟩] ∧
      rebuild ([⟨.text "push", .float 1⟩].map Record.toDatum) = .ok (ofInstrs [.push 1]) ∧
      (Stack.growing.run (ofInstrs [.push 1])).2 = .ok 1 ∧
      (Stack.growing.run ⟨[.instr (.foreign "Halt()" (.text "push") (.ok (.float 1)))]⟩).2 =
        .error (.unknownInstruction "Halt()") := by
  have hshown : (Datum.tuple [.text "halt", .absent]).shown = "('halt', None)" := by
    decide +kernel
  refine ⟨⟨rfl, ?_⟩, rfl, rfl, rfl, rfl⟩
  rw [← hshown]
  rfl

end Program

end Calculator
