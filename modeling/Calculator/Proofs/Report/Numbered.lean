import Calculator.Proofs.Session.Idle

/-!
Texts that show a number.  Such a text is a template in which every gap is for the number, so the
texts for two numbers differ in nothing else.  The answer to a line shows the number of the line so.
-/
namespace Calculator

/-- The text has the number in places of its own and depends on it nowhere else. -/
def ShowsNumber (f : Nat → String) : Prop :=
  ∃ t : Template, ∀ n, f n = t.fill id [Layout.natText n]

theorem Template.fill_append (style : String → String) (snippets : List String)
    (t t' : Template) :
    Template.fill style snippets (t ++ t') =
      Template.fill style snippets t ++ Template.fill style snippets t' := by
  rw [fill, fill, fill, List.map_append, String.join_append]

namespace ShowsNumber

variable {f g : Nat → String}

theorem const (s : String) : ShowsNumber fun _ => s := by
  refine ⟨Template.plain s, ?_⟩
  intro n
  simp [Template.fill, Template.plain, Piece.fill, String.join_cons]

theorem natText : ShowsNumber Layout.natText := by
  refine ⟨[.snippet 0], ?_⟩
  intro n
  simp [Template.fill, Piece.fill, String.join_cons]

theorem append (hf : ShowsNumber f) (hg : ShowsNumber g) : ShowsNumber fun n => f n ++ g n := by
  rcases hf with ⟨t, ht⟩
  rcases hg with ⟨t', ht'⟩
  refine ⟨t ++ t', ?_⟩
  intro n
  simp only [Template.fill_append, ht, ht']

theorem paint (hf : ShowsNumber f) (coloured : Bool) (ink : Ink) :
    ShowsNumber fun n => ink.paint coloured (f n) := by
  cases coloured with
  | false => exact hf
  | true => exact ((const ink.opening).append hf).append (const Ink.closing)

theorem congr (hf : ShowsNumber f) (h : ∀ n, g n = f n) : ShowsNumber g := by
  rcases hf with ⟨t, ht⟩
  refine ⟨t, ?_⟩
  intro n
  rw [h, ht]

end ShowsNumber

/-- The first text shows the number `m` and the second one `n`, and they differ in nothing else. -/
def SameButNumber (m n : Nat) (s s' : String) : Prop :=
  ∃ t : Template, s = t.fill id [Layout.natText m] ∧ s' = t.fill id [Layout.natText n]

theorem ShowsNumber.same {f : Nat → String} (hf : ShowsNumber f) (m n : Nat) :
    SameButNumber m n (f m) (f n) := by
  rcases hf with ⟨t, ht⟩
  exact ⟨t, ht m, ht n⟩

theorem SameButNumber.refl (m n : Nat) (s : String) : SameButNumber m n s s :=
  (ShowsNumber.const s).same m n

theorem SameButNumber.eq {n : Nat} {s s' : String} (h : SameButNumber n n s s') : s = s' := by
  rcases h with ⟨t, rfl, rfl⟩
  rfl

namespace Traceback

variable (path line : String)

/-- Line numbers are shown in decimal. -/
theorem numberText_natCast (n : Nat) : numberText (some (n : Int)) = Layout.natText n := by
  rw [numberText, Layout.intText, if_neg (by omega), Int.natAbs_natCast]

theorem showsNumber_placeText :
    ShowsNumber fun n => placeText ⟨path, some line, some (n : Int)⟩ := by
  cases hempty : line.isEmpty with
  | true =>
      refine (ShowsNumber.const "").congr ?_
      intro n
      simp only [placeText, hempty, ↓reduceIte]
  | false =>
      have hplace := (((ShowsNumber.const ("  File '" ++ path ++ "', line ")).append
        .natText).append (.const ":\n    ")).append (.const line)
      refine (hplace.append (.const "\n")).congr ?_
      intro n
      simp only [placeText, hempty, Bool.false_eq_true, ↓reduceIte, numberText_natCast]

/-- A traceback of one place shows the number of the line there. -/
theorem showsNumber_text : ShowsNumber fun n => text [⟨path, some line, some (n : Int)⟩] := by
  have hjoin : ∀ n : Nat, String.join ([⟨path, some line, some (n : Int)⟩].map placeText) =
      placeText ⟨path, some line, some (n : Int)⟩ := by
    intro n
    simp [String.join_cons]
  cases hempty : line.isEmpty with
  | true =>
      refine (ShowsNumber.const "").congr ?_
      intro n
      have hplace : placeText ⟨path, some line, some (n : Int)⟩ = "" := by
        simp only [placeText, hempty, ↓reduceIte]
      simp only [text, hjoin, hplace]
      rfl
  | false =>
      refine ((ShowsNumber.const "Traceback:\n").append (showsNumber_placeText path line)).congr ?_
      intro n
      have hplace : (placeText ⟨path, some line, some (n : Int)⟩).isEmpty = false := by
        simp [placeText, hempty]
      simp only [text, hjoin, hplace, Bool.false_eq_true, ↓reduceIte]

theorem showsNumber_location :
    ShowsNumber fun n => location [⟨path, some line, some (n : Int)⟩] := by
  have hplace := ((ShowsNumber.const (path ++ ":")).append .natText).append (.const ": ")
  refine hplace.congr ?_
  intro n
  simp [location, numberText_natCast]

end Traceback

namespace Setting

variable (g : Setting) (line : String)

theorem showsNumber_errorText (report : Report) :
    ShowsNumber fun n => (g.reporter (some line) (some (n : Int))).errorText report := by
  have htext := Traceback.showsNumber_text Session.interactivePath line
  have hinternal := htext.append
    (.const (if report.internal then Ink.error.paint g.coloured "[internal] " else ""))
  have hlabel := hinternal.append (.const (Ink.error.paint g.coloured "error: "))
  have hmessage := (hlabel.append (.const (report.styled g.coloured))).append (.const "\n")
  refine (hmessage.append (.const ((g.reporter none none).diagnosisText false report))).congr ?_
  intro n
  simp only [Reporter.errorText, Reporter.diagnosisText, reporter]

theorem showsNumber_failureText (f : Failure) :
    ShowsNumber fun n => (g.reporter (some line) (some (n : Int))).failureText f := by
  cases hreport : f.report? with
  | none =>
      refine (ShowsNumber.const "").congr ?_
      intro n
      simp only [Reporter.failureText, hreport]
  | some report =>
      refine (g.showsNumber_errorText line report).congr ?_
      intro n
      simp only [Reporter.failureText, hreport]

theorem showsNumber_warningText (report : Report) :
    ShowsNumber fun n => (g.reporter (some line) (some (n : Int))).warningText report := by
  have hlocation := (Traceback.showsNumber_location Session.interactivePath line).paint
    g.coloured .bold
  have hlabel := hlocation.append (.const (Ink.warning.paint g.coloured "warning: "))
  have hmessage := (hlabel.append (.const (report.styled g.coloured))).append (.const "\n")
  refine (hmessage.append (.const ((g.reporter none none).diagnosisText true report))).congr ?_
  intro n
  simp only [Reporter.warningText, Reporter.diagnosisText, reporter]

/-- What running a tree prints shows the number, and its result does not depend on it. -/
theorem showsNumber_shown (e : Expr) :
    ∃ (f : Nat → String) (answer : Except Failure String), ShowsNumber f ∧
      ∀ n : Nat, g.shown (g.reporter (some line) (some (n : Int))) line e = (f n, answer) := by
  cases hemit : g.emitting with
  | true =>
      refine ⟨fun _ => "", e.compile.map Program.display, .const "", ?_⟩
      intro n
      simp only [shown, hemit, ↓reduceIte]
  | false =>
      cases hvalue : g.value e with
      | error f =>
          refine ⟨fun _ => "", .error f, .const "", ?_⟩
          intro n
          simp only [shown, hemit, hvalue, Bool.false_eq_true, ↓reduceIte]
      | ok x =>
          cases hfinite : Binary64.isFinite x with
          | true =>
              refine ⟨fun _ => "", .ok (Number.text x), .const "", ?_⟩
              intro n
              simp only [shown, hemit, hvalue, hfinite, Bool.false_eq_true, ↓reduceIte]
          | false =>
              refine ⟨_, .ok (Number.text x),
                g.showsNumber_warningText line (Session.notFinite line x), ?_⟩
              intro n
              simp only [shown, hemit, hvalue, hfinite, Bool.false_eq_true, ↓reduceIte]

/-- The answers to a line under two numbers differ in the number only. -/
theorem showsNumber_answer : ShowsNumber (g.answer line) := by
  cases hparse : Expr.parse line with
  | error f =>
      refine (g.showsNumber_failureText line f).congr ?_
      intro n
      simp only [answer, lineResult, hparse, String.empty_append]
  | ok e =>
      obtain ⟨f, answer, hf, hshown⟩ := g.showsNumber_shown line e
      cases answer with
      | ok result =>
          refine (hf.append (.const (result ++ "\n"))).congr ?_
          intro n
          simp only [Setting.answer, lineResult, hparse, hshown]
      | error failure =>
          refine (hf.append (g.showsNumber_failureText line failure)).congr ?_
          intro n
          simp only [Setting.answer, lineResult, hparse, hshown]

end Setting

end Calculator
