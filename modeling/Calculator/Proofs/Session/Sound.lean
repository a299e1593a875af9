import Calculator.Proofs.Program.Records
import Calculator.Proofs.Session.Keeping

/-!
Sound sessions.  The stack of a session is well kept, and every record of it is one of an
instruction.  A session begins so, and nothing that is done to it changes that, whether it fails or
not.
-/
namespace Calculator.Session

variable {P : Session → Prop} {s : Session} {is : List Instr} {rs : List Record} {files : Files}
  {options : SessionOptions} {r : Reporter}

/-- The records are those of the instructions. -/
def RecordsOf (rs : List Record) (is : List Instr) : Prop :=
  List.Forall₂ (fun r i => Record.instr r.toDatum = .ok i) rs is

theorem RecordsOf.ofRecords_eq (h : RecordsOf rs is) :
    Program.ofRecords (rs.map Record.toDatum) = .ok (Program.ofInstrs is) :=
  Program.ofRecords_eq_ok_iff.mpr ⟨is, List.forall₂_map_left_iff.mpr h, rfl⟩

theorem RecordsOf.exact (h : RecordsOf rs is) : ∀ i ∈ is, i.Exact := by
  induction h with
  | nil => exact List.forall_mem_nil _
  | cons hr _ ih => exact List.forall_mem_cons.mpr ⟨(Record.normal_of_instr hr).1, ih⟩

/-- The stack is well kept, and every record is one of an instruction. -/
structure Sound (s : Session) : Prop where
  stack : s.stack.Valid
  records : ∃ is, RecordsOf s.records is

/-- What is accepted is an expression, or a record of an instruction. -/
theorem Sound.accept {text : String} {number : Int} {s' : Session}
    (h : s.accept text number = .ok s') (hs : s.Sound) : s'.Sound := by
  rcases accept_cases h with ⟨-, r, i, hinstr, rfl⟩ | ⟨-, tree, rfl⟩
  · obtain ⟨is, his⟩ := hs.records
    exact ⟨hs.stack, is ++ [i], List.rel_append his (.cons hinstr .nil)⟩
  · exact ⟨hs.stack, hs.records⟩

theorem lasting_sound : Lasting Sound where
  valid _ hs := hs.stack
  withReporter _ _ _ hs := ⟨hs.stack, hs.records⟩
  withStack _ _ ht hs := ⟨ht, hs.records⟩
  withResults _ _ hs := ⟨hs.stack, hs.records⟩
  dequeue _ _ hs := ⟨hs.stack, hs.records⟩
  accept _ _ _ _ h hs := hs.accept h

/-! ### What lasts through everything that is done to a session -/

/-- The machine's part of `Session.execute` may fail in any way. -/
theorem Lasting.keeps_machine (h : Lasting P) (d : Datum) (compared : Bool) :
    Keeps P (fun _ => True) (do
      let p ← Action.ofExcept d.compile
      let machine ← runProgram p
      if compared then
        let tree ← Action.ofExcept d.evaluate
        if Binary64.identical tree machine then return machine
        else Action.fail (disagreement d tree machine)
      else return machine) := by
  refine (keeps_ofExcept fun _ _ => trivial).bind fun p =>
    ((h.keeps_runProgram p).weaken fun _ _ => trivial).bind fun machine => ?_
  cases compared with
  | false => exact keeps_pure machine
  | true =>
      refine (keeps_ofExcept fun _ _ => trivial).bind fun tree => ?_
      split
      · exact keeps_pure machine
      · exact keeps_fail trivial

theorem Lasting.keeps_execute (h : Lasting P) (d : Datum) :
    Keeps P (fun _ => True) (execute d) := by
  refine keeps_get.bind fun s => ?_
  split
  · exact keeps_ofExcept fun _ _ => trivial
  · exact h.keeps_machine d _

theorem keeps_popResult (h : ∀ s results, P s → P { s with results }) :
    Keeps P (fun _ => True) popResult := by
  refine keeps_get.bind fun s => ?_
  split
  · exact (keeps_modify fun s hs => h s _ hs).bind fun _ => keeps_pure _
  · exact keeps_fail trivial

/-- What lasts and is true of every session that has read nothing yet is true of every session that
has been started. -/
theorem Lasting.of_start (h : Lasting P)
    (hfresh : ∀ options r stack, stack.Valid → P (fresh options r stack))
    (hstart : ((start files options).run r).result = .ok s) : P s := by
  by_cases hlisted : options.strategy ∈ Strategy.listed
  · cases hmake : Stack.make options.stackSize with
    | error i =>
        rw [run_start_of_make_error files options r hlisted hmake] at hstart
        cases hstart
    | ok stack =>
        have hunused := Stack.holds_unused (options.stackSize.map Int.toNat)
        rw [← Stack.eq_unused_of_make hmake] at hunused
        have hloaded := h.ends_load files
          (hfresh options (reporterAtStart options r) stack hunused.valid)
        rw [run_start_of_make files options r hlisted hmake] at hstart
        rcases hload : (load files).run (fresh options (reporterAtStart options r) stack) with
          ⟨out, s', answer⟩
        rw [run_conduct (s := fresh options (reporterAtStart options r) stack) hload] at hstart
        cases answer with
        | error e => cases hstart
        | ok done =>
            obtain rfl := Except.ok.inj hstart
            exact (Action.ends_of_run_ok hload).mp hloaded
  · -- no session is started with a strategy that is not listed
    obtain ⟨path, strategy, size, interactive, assembly, emitting⟩ := options
    cases strategy with
    | unlisted name => cases hstart
    | tree | vm | both => simp [Strategy.listed] at hlisted

/-- Sessions that a program using the library can come to have: whatever is done to a session, it
may fail, and the strategy and the reporter may be replaced. -/
inductive Reachable (files : Files) : Session → Prop where
  | start {options : SessionOptions} {r : Reporter} {s : Session}
      (h : ((start files options).run r).result = .ok s) : Reachable files s
  | add {s : Session} (text : String) (number : Int) :
      Reachable files s → Reachable files ((add text number).run s).state
  | execute {s : Session} (d : Datum) :
      Reachable files s → Reachable files ((execute d).run s).state
  | run {s : Session} : Reachable files s → Reachable files (run.run s).state
  | popResult {s : Session} : Reachable files s → Reachable files (popResult.run s).state
  | withStrategy {s : Session} (strategy : Strategy) :
      Reachable files s → Reachable files { s with strategy }
  | withReporter {s : Session} (reporter : Reporter) :
      Reachable files s → Reachable files { s with reporter }

/-- What lasts from the start of a session, whatever its strategy, reporter and results are, is true
of every session that a program can come to have. -/
theorem Reachable.of_lasting (h : Reachable files s) (hP : Lasting P)
    (hfresh : ∀ options r stack, stack.Valid → P (fresh options r stack))
    (hother : ∀ s strategy reporter results, P s → P { s with strategy, reporter, results }) :
    P s := by
  induction h with
  | start h => exact hP.of_start hfresh h
  | add text number _ ih => exact (hP.keeps_add text number).state ih
  | execute d _ ih => exact (hP.keeps_execute d).state ih
  | run _ ih => exact hP.keeps_run.state ih
  | popResult _ ih => exact (keeps_popResult fun s results hs => hother s _ _ results hs).state ih
  | withStrategy strategy _ ih => exact hother _ _ _ _ ih
  | withReporter reporter _ ih => exact hother _ _ _ _ ih

theorem sound_fresh {stack : Stack} (hstack : stack.Valid) : (fresh options r stack).Sound :=
  ⟨hstack, [], .nil⟩

/-- A session begins with a stack that was never used and without records. -/
theorem sound_of_start (h : ((start files options).run r).result = .ok s) : s.Sound :=
  lasting_sound.of_start (fun _ _ _ => sound_fresh) h

theorem Reachable.sound (h : Reachable files s) : s.Sound :=
  h.of_lasting lasting_sound (fun _ _ _ => sound_fresh) fun _ _ _ _ hs => ⟨hs.stack, hs.records⟩

end Calculator.Session
