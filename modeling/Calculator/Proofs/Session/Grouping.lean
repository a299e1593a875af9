import Calculator.Proofs.Expr.Printing
import Calculator.Proofs.Session.Batch
import Calculator.Proofs.Session.Starting

/-!
Logical lines as groups of lines.  A line that is not blank begins a group, which goes on for as
long as its text is open; only the last group may stay open.  There is one way to divide a file so,
and this is how a session reads it; every group is queued, in order and with a number of its own.
-/
namespace Calculator

namespace LogicalLine

open Text

variable {number : Int} {line : String} {lines group before ps : List String}
  {ls : List LogicalLine}

/-- The lines as they are kept, without those that are blank. -/
def pieces (lines : List String) : List String :=
  (lines.map clean).filter (· ≠ "")

/-- The text of a group: its pieces with single blanks between them. -/
def groupText (lines : List String) : String :=
  " ".intercalate (pieces lines)

/-- The lines begin with one that is not blank, and their text is open before each later one. -/
structure Group (lines : List String) : Prop where
  begins : ∃ line rest, lines = line :: rest ∧ clean line ≠ ""
  goesOn : ∀ before after, lines = before ++ after → before ≠ [] → after ≠ [] →
    isOpen (groupText before) = true

/-- Lines from a number on are divided into groups, which are these logical lines. -/
inductive Divided : Int → List String → List LogicalLine → Prop where
  | nil (number : Int) : Divided number [] []
  | blank {number : Int} {line : String} {lines : List String} {ls : List LogicalLine}
      (hblank : clean line = "") (hrest : Divided (number + 1) lines ls) :
      Divided number (line :: lines) ls
  | closed {number : Int} {group lines : List String} {ls : List LogicalLine}
      (hgroup : Group group) (hclosed : isOpen (groupText group) = false)
      (hrest : Divided (number + group.length) lines ls) :
      Divided number (group ++ lines) (⟨groupText group, number⟩ :: ls)
  /-- The last group may end open. -/
  | last {number : Int} {group : List String} (hgroup : Group group)
      (hopen : isOpen (groupText group) = true) :
      Divided number group [⟨groupText group, number⟩]

/-! ### The text of a group -/

theorem pieces_append (lines lines' : List String) :
    pieces (lines ++ lines') = pieces lines ++ pieces lines' := by
  rw [pieces, List.map_append, List.filter_append, pieces, pieces]

theorem pieces_blank (h : clean line = "") : pieces [line] = [] := by
  simp [pieces, h]

theorem pieces_singleton (h : clean line ≠ "") : pieces [line] = [clean line] := by
  simp [pieces, h]

/-- A piece is trimmed and not blank. -/
theorem of_mem_pieces {p : String} (h : p ∈ pieces lines) :
    trim p.toList = p.toList ∧ p.toList ≠ [] := by
  obtain ⟨hmem, hne⟩ := List.mem_filter.mp h
  obtain ⟨line, -, rfl⟩ := List.mem_map.mp hmem
  refine ⟨(tidy_clean line).trimmed, ?_⟩
  simpa using hne

/-- Trimmed texts that are joined are trimmed. -/
theorem trim_intercalate (hne : ps ≠ [])
    (h : ∀ p ∈ ps, trim p.toList = p.toList ∧ p.toList ≠ []) :
    trim (" ".intercalate ps).toList = (" ".intercalate ps).toList ∧
      (" ".intercalate ps).toList ≠ [] := by
  induction ps with
  | nil => exact absurd rfl hne
  | cons p ps ih =>
      obtain ⟨hp, hps⟩ := List.forall_mem_cons.mp h
      cases ps with
      | nil =>
          rw [String.intercalate_singleton]
          exact hp
      | cons q ps =>
          obtain ⟨htrim, hrest⟩ := ih (List.cons_ne_nil q ps) hps
          have hchars : (" ".intercalate (p :: q :: ps)).toList =
              p.toList ++ ' ' :: (" ".intercalate (q :: ps)).toList := by
            rw [String.intercalate_cons_cons]
            simp
          rw [hchars]
          exact ⟨trim_append_cons hp.1 hp.2 htrim hrest,
            List.append_ne_nil_of_left_ne_nil hp.2 _⟩

theorem Group.pieces_ne_nil (h : Group group) : pieces group ≠ [] := by
  obtain ⟨line, rest, rfl, hline⟩ := h.begins
  rw [← List.singleton_append, pieces_append, pieces_singleton hline]
  exact List.cons_ne_nil _ _

theorem Group.trim_groupText (h : Group group) :
    trim (groupText group).toList = (groupText group).toList ∧ (groupText group).toList ≠ [] :=
  trim_intercalate h.pieces_ne_nil fun _ hp => of_mem_pieces hp

theorem groupText_singleton (line : String) : groupText [line] = clean line := by
  by_cases hblank : clean line = ""
  · rw [groupText, pieces_blank hblank, hblank]
    rfl
  · rw [groupText, pieces_singleton hblank, String.intercalate_singleton]

theorem trimmed_eq_iff {s t : String} : trimmed s = t ↔ trim s.toList = t.toList := by
  rw [trimmed, ← String.toList_inj, String.toList_ofList]

/-- A blank line changes nothing in a group. -/
theorem groupText_concat_of_blank (group : List String) (h : clean line = "") :
    groupText (group ++ [line]) = groupText group := by
  rw [groupText, pieces_append, pieces_blank h, List.append_nil, groupText]

theorem Group.groupText_concat (hgroup : Group group) (h : clean line ≠ "") :
    groupText (group ++ [line]) = groupText group ++ " " ++ clean line := by
  rw [groupText, pieces_append, pieces_singleton h,
    String.intercalate_append_of_ne_nil hgroup.pieces_ne_nil (List.cons_ne_nil _ _),
    String.intercalate_singleton, groupText]

/-- The text of a group is continued by the next line. -/
theorem Group.joined_groupText (h : Group group) (line : String) :
    joined (groupText group) (clean line) = groupText (group ++ [line]) := by
  obtain ⟨htrim, hne⟩ := h.trim_groupText
  rw [joined, trimmed_eq_iff]
  by_cases hblank : clean line = ""
  · have hspace : Blanks [' '] := List.forall_mem_singleton.mpr rfl
    rw [groupText_concat_of_blank group hblank, hblank]
    simpa [trim_append_right hspace] using htrim
  · have hline : (clean line).toList ≠ [] := by simpa using hblank
    rw [h.groupText_concat hblank]
    simpa using trim_append_cons htrim hne (tidy_clean line).trimmed hline

/-! ### Reading groups -/

/-- The logical lines of lines that begin at a number, after the logical line that was read last
and that may be open. -/
def resume (number : Int) (l : LogicalLine) (lines : List String) : List LogicalLine :=
  if isOpen l.text then gather number (some l) lines
  else if l.text.isEmpty then gather number none lines
  else l :: gather number none lines

theorem gather_cons (number : Int) (opened : Option LogicalLine) (line : String)
    (lines : List String) :
    gather number opened (line :: lines) =
      resume (number + 1) (extended number opened line) lines :=
  rfl

theorem Group.resume_of_closed (h : Group group) (hclosed : isOpen (groupText group) = false)
    (number start : Int) (lines : List String) :
    resume number ⟨groupText group, start⟩ lines =
      ⟨groupText group, start⟩ :: gather number none lines := by
  have hfull : (groupText group).isEmpty = false := by
    have hne := h.trim_groupText.2
    rw [Bool.eq_false_iff]
    simpa [String.isEmpty_iff] using hne
  simp only [resume, hclosed, hfull, Bool.false_eq_true, ↓reduceIte]

theorem resume_of_open (hopen : isOpen (groupText group) = true) (number start : Int)
    (lines : List String) :
    resume number ⟨groupText group, start⟩ lines =
      gather number (some ⟨groupText group, start⟩) lines :=
  if_pos hopen

theorem group_singleton (h : clean line ≠ "") : Group [line] := by
  refine ⟨⟨line, [], rfl, h⟩, ?_⟩
  intro before after hsplit hbefore hafter
  have hlength := congrArg List.length hsplit
  rw [List.length_append, List.length_singleton] at hlength
  have hfront := List.length_pos_iff.mpr hbefore
  have hback := List.length_pos_iff.mpr hafter
  omega

/-- An open group goes on with the next line. -/
theorem Group.concat (h : Group group) (hopen : isOpen (groupText group) = true) (line : String) :
    Group (group ++ [line]) := by
  obtain ⟨first, rest, hfirst, hline⟩ := h.begins
  refine ⟨⟨first, rest ++ [line], by rw [hfirst, List.cons_append], hline⟩, ?_⟩
  intro before after hsplit hbefore hafter
  rcases List.eq_nil_or_concat' after with rfl | ⟨after, last, rfl⟩
  · exact absurd rfl hafter
  · rw [← List.append_assoc] at hsplit
    obtain ⟨hsame, -⟩ := List.append_inj' hsplit rfl
    cases after with
    | nil =>
        rw [List.append_nil] at hsame
        rwa [← hsame]
    | cons next after => exact h.goesOn before _ hsame hbefore (List.cons_ne_nil next after)

/-- A group before its last line is an open group. -/
theorem Group.of_concat (h : Group (before ++ [line])) (hne : before ≠ []) :
    Group before ∧ isOpen (groupText before) = true := by
  refine ⟨⟨?_, ?_⟩, h.goesOn before [line] rfl hne (List.cons_ne_nil line [])⟩
  · obtain ⟨first, rest, hsplit, hfirst⟩ := h.begins
    cases before with
    | nil => exact absurd rfl hne
    | cons first' before =>
        obtain rfl : first' = first := (List.cons.inj hsplit).1
        exact ⟨first', before, rfl, hfirst⟩
  · intro before' after hsplit hbefore' hafter
    refine h.goesOn before' (after ++ [line]) ?_ hbefore' (by simp)
    rw [hsplit, List.append_assoc]

/-- A group is read as one logical line, whatever lines follow it. -/
theorem Group.gather_append (h : Group group) (number : Int) (lines : List String) :
    gather number none (group ++ lines) =
      resume (number + group.length) ⟨groupText group, number⟩ lines := by
  induction group using List.reverseRecOn generalizing lines with
  | nil =>
      obtain ⟨line, rest, hnil, -⟩ := h.begins
      cases hnil
  | append_singleton before line ih =>
      by_cases hne : before = []
      · rw [hne, List.nil_append, List.singleton_append, gather_cons, groupText_singleton]
        rfl
      · obtain ⟨hbefore, hopen⟩ := h.of_concat hne
        rw [List.append_assoc, List.singleton_append, ih hbefore, resume_of_open hopen, gather_cons,
          ← hbefore.joined_groupText, List.length_append, List.length_singleton, Nat.cast_add,
          Nat.cast_one, Int.add_assoc]
        rfl

/-- Lines are divided in no other way than they are read. -/
theorem Divided.gather_eq (h : Divided number lines ls) : gather number none lines = ls := by
  induction h with
  | nil number => rfl
  | blank hblank _ ih =>
      rw [gather_blank, ih]
      · simp [extended, hblank, isOpen]
      · simp [extended, hblank]
  | closed hgroup hclosed _ ih => rw [hgroup.gather_append, hgroup.resume_of_closed hclosed, ih]
  | last hgroup hopen =>
      rename_i number group
      have hread := hgroup.gather_append number []
      rw [List.append_nil, resume_of_open hopen] at hread
      exact hread

/-- What follows a group is read on. -/
theorem Group.divided_resume (h : Group group) (number : Int)
    (hclosed : isOpen (groupText group) = false →
      Divided (number + group.length) lines (gather (number + group.length) none lines))
    (hopen : isOpen (groupText group) = true →
      Divided number (group ++ lines)
        (gather (number + group.length) (some ⟨groupText group, number⟩) lines)) :
    Divided number (group ++ lines)
      (resume (number + group.length) ⟨groupText group, number⟩ lines) := by
  cases htext : isOpen (groupText group) with
  | true =>
      rw [resume_of_open htext]
      exact hopen htext
  | false =>
      rw [h.resume_of_closed htext]
      exact .closed h htext (hclosed htext)

/-- Lines are divided as they are read; the second part is for lines after those of an open
group. -/
theorem divided_gather (lines : List String) :
    (∀ number, Divided number lines (gather number none lines)) ∧
      ∀ (group : List String) (number : Int), Group group → isOpen (groupText group) = true →
        Divided number (group ++ lines)
          (gather (number + group.length) (some ⟨groupText group, number⟩) lines) := by
  induction lines with
  | nil =>
      refine ⟨.nil, ?_⟩
      intro group number hgroup hopen
      rw [List.append_nil]
      exact .last hgroup hopen
  | cons line lines ih =>
      obtain ⟨hnone, hsome⟩ := ih
      constructor
      · intro number
        by_cases hblank : clean line = ""
        · rw [gather_blank]
          · exact .blank hblank (hnone (number + 1))
          · simp [extended, hblank, isOpen]
          · simp [extended, hblank]
        · have hgroup := group_singleton hblank
          have hdivided := hgroup.divided_resume number (fun _ => hnone _) (hsome _ number hgroup)
          rw [← hgroup.gather_append] at hdivided
          exact hdivided
      · intro group number hgroup hopen
        have hlonger := hgroup.concat hopen line
        have hdivided := hlonger.divided_resume number (fun _ => hnone _) (hsome _ number hlonger)
        rw [List.append_assoc, List.singleton_append] at hdivided
        rw [gather_cons]
        rw [List.length_append, List.length_singleton, Nat.cast_add, Nat.cast_one,
          ← Int.add_assoc, ← hgroup.joined_groupText] at hdivided
        exact hdivided

/-- There is one way to divide lines into groups. -/
theorem divided_iff : Divided number lines ls ↔ ls = gather number none lines := by
  constructor
  · intro h
    exact h.gather_eq.symm
  · rintro rfl
    exact (divided_gather lines).1 number

/-- Every piece is in one logical line, and they are in order. -/
theorem Divided.exists_pieces (h : Divided number lines ls) :
    ∃ parts : List (List String), ls.map LogicalLine.text = parts.map (" ".intercalate ·) ∧
      parts.flatten = pieces lines ∧ ∀ part ∈ parts, part ≠ [] := by
  induction h with
  | nil number => exact ⟨[], rfl, rfl, List.forall_mem_nil _⟩
  | blank hblank _ ih =>
      obtain ⟨parts, htexts, hpieces, hne⟩ := ih
      refine ⟨parts, htexts, ?_, hne⟩
      rw [hpieces, ← List.singleton_append, pieces_append, pieces_blank hblank, List.nil_append]
  | closed hgroup _ _ ih =>
      rename_i group lines ls _ _
      obtain ⟨parts, htexts, hpieces, hne⟩ := ih
      refine ⟨pieces group :: parts, ?_, ?_, List.forall_mem_cons.mpr ⟨hgroup.pieces_ne_nil, hne⟩⟩
      · rw [List.map_cons, List.map_cons, htexts, groupText]
      · rw [List.flatten_cons, hpieces, pieces_append]
  | last hgroup _ =>
      rename_i group _
      refine ⟨[pieces group], rfl, ?_, List.forall_mem_singleton.mpr hgroup.pieces_ne_nil⟩
      rw [List.flatten_cons, List.flatten_nil, List.append_nil]

end LogicalLine

namespace Session

open Setting (lineOf)

variable {s : Session} {r : Reporter} {stack : Stack} {qs : List QueuedExpr} {ls : List LogicalLine}
  {text : String} {number : Int} {e : Expr}

/-- The entry of the queue is the one of the logical line. -/
def Entry (q : QueuedExpr) (l : LogicalLine) : Prop :=
  q.number = l.number ∧ q.text = l.text ∧ Expr.parse l.text = .ok q.tree

/-- An expression that can be read is queued, and nothing else but the reporter changes. -/
theorem run_add_of_parse (hassembly : s.assembly = false) (h : Expr.parse text = .ok e)
    (number : Int) :
    ∃ r, (add text number).run s =
      ⟨"", { s with reporter := r, queue := enqueue ⟨number, text, e⟩ s.queue }, .ok ()⟩ := by
  refine ⟨(s.reporter.registerLine s.path text number).removeLine s.path, ?_⟩
  rw [add, registerLine, Action.run_bind_of_silent (Action.run_modify _ _),
    Action.run_bind_of_silent (Action.run_get _)]
  simp only [accept, hassembly, Bool.false_eq_true, ↓reduceIte, h, Except.map]
  rw [Action.run_bind_of_silent (Action.run_ofExcept _ _),
    Action.run_bind_of_silent (Action.run_modify _ _)]
  rfl

/-- Expressions that can all be read are queued in order, each with a number of its own. -/
theorem run_addAll_of_parse (hassembly : s.assembly = false)
    (hparse : ∀ q ∈ qs, Expr.parse q.text = .ok q.tree)
    (hnumbers : (s.queue ++ qs).Pairwise fun q q' => q.number < q'.number) :
    ∃ r, (addAll (qs.map lineOf)).run s =
      ⟨"", { s with reporter := r, queue := s.queue ++ qs }, .ok ()⟩ := by
  induction qs generalizing s with
  | nil =>
      refine ⟨s.reporter, ?_⟩
      rw [List.append_nil]
      rfl
  | cons q qs ih =>
      obtain ⟨hq, hqs⟩ := List.forall_mem_cons.mp hparse
      have hfresh : ∀ q' ∈ s.queue, q'.number ≠ q.number := by
        intro q' hq'
        exact Int.ne_of_lt ((List.pairwise_append.mp hnumbers).2.2 q' hq' q List.mem_cons_self)
      have hqueue : enqueue ⟨q.number, q.text, q.tree⟩ s.queue = s.queue ++ [q] :=
        Setting.enqueue_eq_append hfresh
      obtain ⟨r, hadd⟩ := run_add_of_parse hassembly hq q.number
      rw [hqueue] at hadd
      have hlater : ((s.queue ++ [q]) ++ qs).Pairwise fun q q' => q.number < q'.number := by
        rwa [List.append_assoc, List.singleton_append]
      obtain ⟨r', hrest⟩ := ih (s := { s with reporter := r, queue := s.queue ++ [q] }) hassembly
        hqs hlater
      refine ⟨r', ?_⟩
      rw [List.map_cons, addAll, lineOf, Action.run_bind_of_silent hadd, hrest]
      simp only [List.append_assoc, List.singleton_append]

/-- A file of which all logical lines can be read is queued. -/
theorem run_load_of_parse {files : Files} (hassembly : s.assembly = false) (hqueue : s.queue = [])
    (hpath : s.path ≠ interactivePath) (hread : readLogicalLines files s.path = .ok ls)
    (hnumbers : ls.Pairwise fun l m => l.number < m.number)
    (hparse : ∀ l ∈ ls, ∃ e, Expr.parse l.text = .ok e) :
    ∃ s', (load files).run s = ⟨"", s', .ok ()⟩ ∧ List.Forall₂ Entry s'.queue ls ∧
      s'.queue.Pairwise fun q q' => q.number < q'.number := by
  obtain ⟨qs, rfl, hqs⟩ := Setting.exists_queue hparse
  rw [List.pairwise_map] at hnumbers
  obtain ⟨r, hadd⟩ := run_addAll_of_parse hassembly hqs (by rwa [hqueue, List.nil_append])
  refine ⟨{ s with reporter := r, queue := s.queue ++ qs }, ?_, ?_, ?_⟩
  · rw [run_load_of_lines hpath hread, hadd]
  · rw [hqueue, List.nil_append]
    exact List.forall₂_map_right_iff.mpr (List.forall₂_same.mpr fun q hq => ⟨rfl, rfl, hqs q hq⟩)
  · rwa [hqueue, List.nil_append]

/-- The logical lines of a file are those of its text. -/
theorem readLogicalLines_of_divided {files : Files} {path : String} {cs : List Char}
    (hread : readFile files path = .ok cs)
    (hdivided : LogicalLine.Divided 1 ((Text.lines cs).map String.ofList) ls) :
    readLogicalLines files path = .ok ls := by
  rw [readLogicalLines_of_readFile hread, LogicalLine.ofText, hdivided.gather_eq]

/-- Main result: lines of a file are always divided into logical lines, in the only way in which
they can be; no piece of a line is lost or moved.  A session that is started with the file has one
expression queued for each logical line, unless one cannot be parsed. -/
theorem queues_divided_lines :
    (∀ lines : List String, ∃ ls, LogicalLine.assemble lines = .ok ls ∧
      (∀ ls', LogicalLine.Divided 1 lines ls' ↔ ls' = ls) ∧
      (∃ parts : List (List String), ls.map LogicalLine.text = parts.map (" ".intercalate ·) ∧
        parts.flatten = LogicalLine.pieces lines ∧ ∀ part ∈ parts, part ≠ []) ∧
      ls.Pairwise fun l m => l.number < m.number) ∧
      ∀ (files : Files) (options : SessionOptions) (r : Reporter) (stack : Stack) (cs : List Char)
        (ls : List LogicalLine), options.strategy ∈ Strategy.listed →
        Stack.make options.stackSize = .ok stack → options.path ≠ interactivePath →
        options.assembly = false → readFile files options.path = .ok cs →
        LogicalLine.Divided 1 ((Text.lines cs).map String.ofList) ls →
        (∀ l ∈ ls, ∃ e, Expr.parse l.text = .ok e) →
        ∃ (r' : Reporter) (s : Session), (start files options).run r = ⟨"", r', .ok s⟩ ∧
          List.Forall₂ Entry s.queue ls ∧
          s.queue.Pairwise fun q q' => q.number < q'.number := by
  refine ⟨?_, ?_⟩
  · intro lines
    refine ⟨_, LogicalLine.assemble_eq lines, fun ls' => LogicalLine.divided_iff, ?_, ?_⟩
    · exact (LogicalLine.divided_iff.mpr rfl).exists_pieces
    · exact LogicalLine.pairwise_number (by simp)
  · intro files options r stack cs ls hlisted hmake hpath hassembly hread hdivided hparse
    have hlines := readLogicalLines_of_divided hread hdivided
    have hnumbers : ls.Pairwise fun l m => l.number < m.number := by
      rw [← hdivided.gather_eq]
      exact LogicalLine.pairwise_number (by simp)
    obtain ⟨s, hload, hqueue, hincreasing⟩ :=
      run_load_of_parse (s := fresh options (reporterAtStart options r) stack) hassembly rfl hpath
        hlines hnumbers hparse
    refine ⟨s.reporter, s, ?_, hqueue, hincreasing⟩
    rw [run_start_of_make files options r hlisted hmake]
    exact run_conduct (s := fresh options (reporterAtStart options r) stack) hload

/-- Two groups, of which the first one has a line that is only a comment. -/
theorem queues_divided_lines_two_groups :
    LogicalLine.Divided 1 ["(1", ";; one", "+ 2)", "", "1"] [⟨"(1 + 2)", 1⟩, ⟨"1", 5⟩] ∧
      ∃ (r : Reporter) (s : Session),
        (start (fun _ => some ("(1\n;; one\n+ 2)\n\n1\n".toList.map fun c => c.toNat.toUInt8))
          { path := "calc.ac" }).run ⟨true, false, []⟩ = ⟨"", r, .ok s⟩ ∧
        s.queue.map QueuedExpr.number = [1, 5] := by
  have hdivided : LogicalLine.Divided 1 ["(1", ";; one", "+ 2)", "", "1"]
      [⟨"(1 + 2)", 1⟩, ⟨"1", 5⟩] := LogicalLine.divided_iff.mpr (by decide +kernel)
  let one : Expr := .literal (Binary64.ofWord false 4607182418800017408)
  let sum : Expr := .binary .add one (.literal (Binary64.ofWord false 4611686018427387904))
  have hparse : ∀ l ∈ [(⟨"(1 + 2)", 1⟩ : LogicalLine), ⟨"1", 5⟩],
      ∃ e, Expr.parse l.text = .ok e := by
    have hsum : sum.text = "(1 + 2)" := by decide +kernel
    have hone : one.text = "1" := by decide +kernel
    simp only [List.forall_mem_cons]
    refine ⟨⟨sum, ?_⟩, ⟨one, ?_⟩, List.forall_mem_nil _⟩
    · rw [← hsum]
      exact Expr.parseWithin_text (show sum.WellFormed from ⟨trivial, trivial⟩) (by decide)
    · rw [← hone]
      exact Expr.parseWithin_text (show one.WellFormed from trivial) (by decide)
  obtain ⟨r, s, hstart, hqueue, -⟩ := queues_divided_lines.2
    (fun _ => some ("(1\n;; one\n+ 2)\n\n1\n".toList.map fun c => c.toNat.toUInt8))
    { path := "calc.ac" } ⟨true, false, []⟩ .growing "(1\n;; one\n+ 2)\n\n1\n".toList _
    (by decide) rfl (by decide) rfl rfl hdivided hparse
  refine ⟨hdivided, r, s, hstart, ?_⟩
  have hnumbers : List.Forall₂ (fun n l => n = LogicalLine.number l)
      (s.queue.map QueuedExpr.number) [⟨"(1 + 2)", 1⟩, ⟨"1", 5⟩] :=
    List.forall₂_map_left_iff.mpr (hqueue.imp fun _ _ h => h.1)
  rw [← List.forall₂_map_right_iff, List.forall₂_eq_eq_eq] at hnumbers
  exact hnumbers

end Session

end Calculator
