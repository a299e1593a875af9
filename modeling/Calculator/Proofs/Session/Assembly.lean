import Calculator.Proofs.Program.Commented
import Calculator.Proofs.Session.Sound

/-!
Sessions of a listing.  A line is accepted exactly if it states an instruction, so a session starts
exactly if the lines of its file, each cut at its comment, are a listing; the records it keeps are
those of the listing's program, and running the session is running that program.
-/
namespace Calculator

namespace Stack

variable {s : Stack} {is : List Instr}

/-- Plain instructions are known to the machine. -/
theorem run_ne_unknownInstruction (hs : s.Valid) (hexact : ∀ i ∈ is, i.Exact) (shown : String) :
    (s.run (Program.ofInstrs is)).2 ≠ .error (.unknownInstruction shown) := by
  rcases Program.firstFault_or_none s.capacity (Program.ofInstrs is).items with
    ⟨k, e, hfirst⟩ | hsound
  · obtain ⟨-, t, hrun, -⟩ := run_of_firstFault hs hfirst
    rw [hrun]
    rintro ⟨⟩
    obtain ⟨d, hd, hfault⟩ := hfirst.faultAt
    obtain ⟨i, hi, rfl⟩ := List.mem_map.mp (List.mem_of_getElem? hd)
    have hunknown : (Datum.instr i).kind = .unknown := by
      unfold Program.fault at hfault
      split at hfault
      · assumption
      · split at hfault <;> cases hfault
      · split at hfault
        · split at hfault <;> cases hfault
        · cases hfault
    cases hexact i hi <;> cases hunknown
  · obtain ⟨hnone, hmany, hone⟩ := run_snd_of_sound hs hsound
    by_cases hzero : Program.height (Program.ofInstrs is).items = 0
    · rw [hnone hzero]
      rintro ⟨⟩
    · by_cases hlarge : 1 < Program.height (Program.ofInstrs is).items
      · rw [hmany hlarge]
        rintro ⟨⟩
      · obtain ⟨x, -, hx, -⟩ := hone hzero hlarge
        rw [hx]
        rintro ⟨⟩

end Stack

namespace Session

variable {s : Session} {text : String} {number : Int} {i : Instr} {is : List Instr}
  {rs : List Record} {ls : List LogicalLine} {c : Complaint} {p : Program} {files : Files}
  {options : SessionOptions} {r : Reporter} {stack : Stack}

/-! ### Reading a listing -/

/-- A line that states an instruction is accepted with a record of it. -/
theorem accept_of_instr (hassembly : s.assembly = true) (h : Instr.ofLine text = .ok i)
    (number : Int) :
    ∃ r, s.accept text number = .ok { s with records := s.records ++ [r] } ∧
      Record.instr r.toDatum = .ok i := by
  obtain ⟨r, hrecord, hinstr⟩ := Instr.ofLine_eq_ok_iff.mp h
  refine ⟨r, ?_, hinstr⟩
  simp only [accept, hassembly, ↓reduceIte, hrecord, hinstr]

theorem accept_of_error (hassembly : s.assembly = true) (h : Instr.ofLine text = .error c)
    (number : Int) : s.accept text number = .error (.complaint c) := by
  rw [Instr.ofLine] at h
  cases hrecord : Record.ofLine text with
  | error c' =>
      rw [hrecord] at h
      obtain rfl := Except.error.inj h
      simp only [accept, hassembly, ↓reduceIte, hrecord]
  | ok r =>
      rw [hrecord] at h
      have hinstr : Record.instr r.toDatum = .error c := h
      simp only [accept, hassembly, ↓reduceIte, hrecord, hinstr]

theorem run_add_of_instr (hassembly : s.assembly = true) (h : Instr.ofLine text = .ok i)
    (number : Int) :
    ∃ reporter r, (add text number).run s =
      ⟨"", { s with reporter, records := s.records ++ [r] }, .ok ()⟩ ∧
        Record.instr r.toDatum = .ok i := by
  obtain ⟨r, haccept, hinstr⟩ := accept_of_instr (s := { s with
    reporter := s.reporter.registerLine s.path text number }) hassembly h number
  refine ⟨(s.reporter.registerLine s.path text number).removeLine s.path, r, ?_, hinstr⟩
  rw [add, registerLine, Action.run_bind_of_silent (Action.run_modify _ _),
    Action.run_bind_of_silent (Action.run_get _), haccept,
    Action.run_bind_of_silent (Action.run_ofExcept _ _),
    Action.run_bind_of_silent (Action.run_modify _ _)]
  rfl

theorem run_add_of_error (hassembly : s.assembly = true) (h : Instr.ofLine text = .error c)
    (number : Int) :
    ∃ reporter, (add text number).run s = ⟨"", { s with reporter }, .error (.complaint c)⟩ := by
  have haccept := accept_of_error (s := { s with
    reporter := s.reporter.registerLine s.path text number }) hassembly h number
  refine ⟨s.reporter.registerLine s.path text number, ?_⟩
  rw [add, registerLine, Action.run_bind_of_silent (Action.run_modify _ _),
    Action.run_bind_of_silent (Action.run_get _), haccept]
  rfl

/-- Logical lines that are all instructions are kept as their records, in order. -/
theorem run_addAll_of_instrs (hassembly : s.assembly = true)
    (h : List.Forall₂ (fun s i => Instr.ofLine s = .ok i) (ls.map LogicalLine.text) is) :
    ∃ reporter rs, (addAll ls).run s =
      ⟨"", { s with reporter, records := s.records ++ rs }, .ok ()⟩ ∧ RecordsOf rs is := by
  induction ls generalizing s is with
  | nil =>
      cases h
      refine ⟨s.reporter, [], ?_, .nil⟩
      rw [List.append_nil]
      rfl
  | cons l ls ih =>
      cases h with
      | cons hl hls =>
          obtain ⟨reporter, r, hadd, hr⟩ := run_add_of_instr hassembly hl l.number
          obtain ⟨reporter', rs, hrest, hrs⟩ :=
            ih (s := { s with reporter, records := s.records ++ [r] }) hassembly hls
          refine ⟨reporter', r :: rs, ?_, .cons hr hrs⟩
          rw [addAll, Action.run_bind_of_silent hadd, hrest]
          simp only [List.append_assoc, List.singleton_append]

/-- Reading stops with a complaint at a logical line that is no instruction. -/
theorem instrs_or_run_addAll_error (hassembly : s.assembly = true) (ls : List LogicalLine) :
    (∃ is, List.Forall₂ (fun s i => Instr.ofLine s = .ok i) (ls.map LogicalLine.text) is) ∨
      ∃ s' c, (addAll ls).run s = ⟨"", s', .error (.complaint c)⟩ := by
  induction ls generalizing s with
  | nil => exact .inl ⟨[], .nil⟩
  | cons l ls ih =>
      cases hl : Instr.ofLine l.text with
      | error c =>
          obtain ⟨reporter, hadd⟩ := run_add_of_error hassembly hl l.number
          exact .inr ⟨_, c, Action.run_bind_of_error hadd⟩
      | ok i =>
          obtain ⟨reporter, r, hadd, -⟩ := run_add_of_instr hassembly hl l.number
          rcases ih (s := { s with reporter, records := s.records ++ [r] }) hassembly with
            ⟨is, his⟩ | ⟨s', c, hrest⟩
          · exact .inl ⟨i :: is, .cons hl his⟩
          · refine .inr ⟨s', c, ?_⟩
            rw [addAll, Action.run_bind_of_silent hadd, hrest]

/-- A session of a listing starts by reading the logical lines of its file. -/
theorem run_start_of_lines {cs : List Char} {s' : Session} {out : String}
    {answer : Except Failure Unit} (hlisted : options.strategy ∈ Strategy.listed)
    (hmake : Stack.make options.stackSize = .ok stack) (hpath : options.path ≠ interactivePath)
    (hread : readFile files options.path = .ok cs)
    (hadd : (addAll (LogicalLine.ofText cs)).run
      (fresh options (reporterAtStart options r) stack) = ⟨out, s', answer⟩) :
    (start files options).run r = ⟨out, s'.reporter, answer.map fun _ => s'⟩ := by
  rw [run_start_of_make files options r hlisted hmake]
  apply run_conduct
  rw [← hadd]
  exact run_load_of_lines hpath (readLogicalLines_of_readFile hread)

/-- The lines of a text, each cut at its comment. -/
def uncommentedLines (cs : List Char) : List String :=
  ((Text.lines cs).map String.ofList).map LogicalLine.uncommented

/-- The file of a session can be read: the session has a listed strategy and a stack, and is not the
one of the typed input. -/
structure ReadsListing (files : Files) (options : SessionOptions) (stack : Stack)
    (cs : List Char) : Prop where
  assembly : options.assembly = true
  listed : options.strategy ∈ Strategy.listed
  make_eq : Stack.make options.stackSize = .ok stack
  path_ne : options.path ≠ interactivePath
  readable : readFile files options.path = .ok cs

variable {cs : List Char}

/-- A listing is kept as the records of its program. -/
theorem ReadsListing.run_start (h : ReadsListing files options stack cs) (r : Reporter)
    (hlisting : Program.ofListing (uncommentedLines cs) = .ok p) :
    ∃ reporter rs is,
      (start files options).run r = ⟨"", reporter,
        .ok { fresh options (reporterAtStart options r) stack with reporter, records := rs }⟩ ∧
      RecordsOf rs is ∧ p = Program.ofInstrs is := by
  obtain ⟨is, his, rfl⟩ := (LogicalLine.ofListing_iff 1).mp hlisting
  obtain ⟨reporter, rs, hadd, hrs⟩ := run_addAll_of_instrs
    (s := fresh options (reporterAtStart options r) stack) h.assembly his
  exact ⟨reporter, rs, is, run_start_of_lines h.listed h.make_eq h.path_ne h.readable hadd, hrs,
    rfl⟩

/-- Without a listing the session does not start, and a complaint says why. -/
theorem ReadsListing.run_start_error (h : ReadsListing files options stack cs) (r : Reporter)
    (hlisting : ∀ p, Program.ofListing (uncommentedLines cs) ≠ .ok p) :
    ∃ reporter c, (start files options).run r = ⟨"", reporter, .error (.complaint c)⟩ := by
  rcases instrs_or_run_addAll_error (s := fresh options (reporterAtStart options r) stack)
    h.assembly (LogicalLine.ofText cs) with ⟨is, his⟩ | ⟨s', c, hadd⟩
  · exact absurd ((LogicalLine.ofListing_iff 1).mpr ⟨is, his, rfl⟩) (hlisting _)
  · exact ⟨_, c, run_start_of_lines h.listed h.make_eq h.path_ne h.readable hadd⟩

/-! ### Running a listing -/

/-- The session runs the program of its records, or shows it: what the machine makes of the program
on a stack of the session's capacity is what running the session comes to. -/
structure Runs (s : Session) (p : Program) : Prop where
  shown : s.emitting = true → run.run s = ⟨"", s.withResults [p.display], .ok ()⟩
  value : ∀ (t : Stack) (x : Float), s.emitting = false → t.Reachable →
    t.capacity = s.stack.capacity → (t.run p).2 = .ok x →
      ∃ stack, run.run s =
        ⟨if Binary64.isFinite x then ""
          else s.reporter.warningText (notFinite (listingName s.path p) x),
          (s.withStack stack).withResults [Number.text x], .ok ()⟩
  failure : ∀ (t : Stack) (c : Complaint), s.emitting = false → t.Reachable →
    t.capacity = s.stack.capacity → (t.run p).2 = .error c →
      ∃ stack, run.run s = ⟨"", s.withStack stack, .error (.complaint c)⟩

theorem runs_of_records (hassembly : s.assembly = true) (hstack : s.stack.Valid)
    (hrecords : Program.ofRecords (s.records.map Record.toDatum) = .ok p) : s.Runs p := by
  have hrun : run.run s = runListing.run s := by
    rw [run, Action.run_bind_of_silent (Action.run_get _), if_pos hassembly]
  have hprogram : runListing.run s =
      (if s.emitting then addResult p.display
        else runProgram p >>= fun x => record (listingName s.path p) x).run s := by
    rw [runListing, Action.run_bind_of_silent (Action.run_get _), hrecords]
    exact Action.run_bind_of_silent (Action.run_ofExcept _ _)
  have hmachine : ∀ t : Stack, t.Reachable → t.capacity = s.stack.capacity →
      (runProgram p).run s =
        ⟨"", s.withStack (s.stack.run p).1, (t.run p).2.mapError .complaint⟩ := by
    intro t ht hcapacity
    rw [← Stack.run_snd_of_capacity hstack ht.valid hcapacity p]
    rfl
  constructor
  · intro hemitting
    rw [hrun, hprogram, if_pos hemitting]
    rfl
  · intro t x hemitting ht hcapacity hx
    have hran := hmachine t ht hcapacity
    rw [hx] at hran
    refine ⟨(s.stack.run p).1, ?_⟩
    rw [hrun, hprogram, hemitting, if_neg Bool.false_ne_true, Action.run_bind_of_silent hran,
      Setting.run_record]
    rfl
  · intro t c hemitting ht hcapacity hc
    have hran := hmachine t ht hcapacity
    rw [hc] at hran
    refine ⟨(s.stack.run p).1, ?_⟩
    rw [hrun, hprogram, hemitting, if_neg Bool.false_ne_true]
    exact Action.run_bind_of_error hran

/-- A session that was started with a listing runs the program of the listing. -/
theorem ReadsListing.runs (h : ReadsListing files options stack cs)
    (hstart : ((start files options).run r).result = .ok s)
    (hlisting : Program.ofListing (uncommentedLines cs) = .ok p) :
    s.assembly = true ∧ s.path = options.path ∧ s.emitting = options.emitting ∧
      s.stack.capacity = options.stackSize.map Int.toNat ∧
      Program.ofRecords (s.records.map Record.toDatum) = .ok p ∧ s.Runs p := by
  have hsound := sound_of_start hstart
  obtain ⟨reporter, rs, is, hrun, hrs, rfl⟩ := h.run_start r hlisting
  rw [hrun] at hstart
  obtain rfl := Except.ok.inj hstart
  have hcapacity : stack.capacity = options.stackSize.map Int.toNat := by
    rw [Stack.eq_unused_of_make h.make_eq]
    exact (Stack.holds_unused _).capacity_eq
  exact ⟨h.assembly, rfl, rfl, hcapacity, hrs.ofRecords_eq,
    runs_of_records h.assembly hsound.stack hrs.ofRecords_eq⟩

/-- Main result: a session starts with a listing exactly if the lines of its file, each cut at its
comment, can be read as a program, and then running the session is running this program on a stack
of the session's capacity, or showing it.  The records of a session are those of a program, whatever
was done to the session, so it never runs into an unknown instruction. -/
theorem assembly_runs_listing (files : Files) :
    (∀ (options : SessionOptions) (stack : Stack) (cs : List Char) (r : Reporter),
      ReadsListing files options stack cs →
      ((∃ s, ((start files options).run r).result = .ok s) ↔
        ∃ p, Program.ofListing (uncommentedLines cs) = .ok p) ∧
      ∀ s p, ((start files options).run r).result = .ok s →
        Program.ofListing (uncommentedLines cs) = .ok p →
        s.assembly = true ∧ s.path = options.path ∧ s.emitting = options.emitting ∧
          s.stack.capacity = options.stackSize.map Int.toNat ∧
          Program.ofRecords (s.records.map Record.toDatum) = .ok p ∧ s.Runs p) ∧
    ∀ s, Reachable files s → s.assembly = true →
      ∃ p, Program.ofRecords (s.records.map Record.toDatum) = .ok p ∧ s.Runs p ∧
        ∀ shown, (run.run s).result ≠ .error (.complaint (.unknownInstruction shown)) := by
  constructor
  · intro options stack cs r h
    refine ⟨?_, fun s p => h.runs⟩
    constructor
    · rintro ⟨s, hstart⟩
      by_contra hnone
      obtain ⟨reporter, c, hrun⟩ := h.run_start_error r fun p hp => hnone ⟨p, hp⟩
      rw [hrun] at hstart
      cases hstart
    · rintro ⟨p, hlisting⟩
      obtain ⟨reporter, rs, is, hrun, -, -⟩ := h.run_start r hlisting
      rw [hrun]
      exact ⟨_, rfl⟩
  · intro s hreachable hassembly
    obtain ⟨is, his⟩ := hreachable.sound.records
    have hruns := runs_of_records hassembly hreachable.sound.stack his.ofRecords_eq
    refine ⟨Program.ofInstrs is, his.ofRecords_eq, hruns, ?_⟩
    intro shown
    -- a new stack of the same capacity tells how the machine ends on the stack of the session
    cases hemitting : s.emitting with
    | true =>
        rw [hruns.shown hemitting]
        rintro ⟨⟩
    | false =>
        obtain ⟨t, ht, hcapacity⟩ : ∃ t : Stack, t.Reachable ∧ t.capacity = s.stack.capacity := by
          cases hcapacity : s.stack.capacity with
          | none => exact ⟨.growing, .growing, rfl⟩
          | some n => exact ⟨.fixed n, .fixed n, rfl⟩
        have hknown := Stack.run_ne_unknownInstruction ht.valid his.exact shown
        cases hresult : (t.run (Program.ofInstrs is)).2 with
        | ok x =>
            obtain ⟨stack, hrun⟩ := hruns.value t x hemitting ht hcapacity hresult
            rw [hrun]
            rintro ⟨⟩
        | error c =>
            obtain ⟨stack, hrun⟩ := hruns.failure t c hemitting ht hcapacity hresult
            rw [hrun]
            rintro ⟨⟩
            exact hknown hresult

/-- A listing with a comment, a blank line and a mnemonic in upper case. -/
def product : String :=
  "push 2 ;; two\n\nPUSH 3\napply *\n"

theorem assembly_runs_listing_product :
    ReadsListing (fun _ => some (product.toList.map fun c => c.toNat.toUInt8))
        { path := "product.asm", assembly := true } .growing product.toList ∧
      ∃ s p, ((start (fun _ => some (product.toList.map fun c => c.toNat.toUInt8))
          { path := "product.asm", assembly := true }).run ⟨true, false, []⟩).result = .ok s ∧
        Program.ofListing (uncommentedLines product.toList) = .ok p ∧ s.Runs p ∧
        ∀ shown, (run.run s).result ≠ .error (.complaint (.unknownInstruction shown)) := by
  have h : ReadsListing (fun _ => some (product.toList.map fun c => c.toNat.toUInt8))
      { path := "product.asm", assembly := true } .growing product.toList :=
    ⟨rfl, by decide, rfl, by decide, rfl⟩
  have hlisting : (Program.ofListing (uncommentedLines product.toList)).isOk = true := by
    decide +kernel
  cases hp : Program.ofListing (uncommentedLines product.toList) with
  | error c =>
      rw [hp] at hlisting
      cases hlisting
  | ok p =>
      obtain ⟨hread, hreachable⟩ :=
        assembly_runs_listing (fun _ => some (product.toList.map fun c => c.toNat.toUInt8))
      obtain ⟨hstarts, hruns⟩ := hread _ _ _ ⟨true, false, []⟩ h
      obtain ⟨s, hstart⟩ := hstarts.mpr ⟨p, hp⟩
      obtain ⟨hassembly, -, -, -, -, hrun⟩ := hruns s p hstart hp
      obtain ⟨-, -, -, hknown⟩ := hreachable s (.start hstart) hassembly
      exact ⟨h, s, p, hstart, rfl, hrun, hknown⟩

end Session

end Calculator
