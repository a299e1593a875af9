import Calculator.CommandLine
import Calculator.Proofs.Action.Binding
import Mathlib.Tactic

/-!
Settings that a command line is accepted with.  Whatever the arguments, the strategy is one of
those that are listed, and a stack size is not negative.
-/
namespace Calculator.Settings

variable {settings settings' : Settings} {arguments : List Argument} {extras : List String}

/-- What is left over of the arguments does not change the settings. -/
theorem of_left_over {P : Settings → Prop} (more : List String → List String)
    (ih : ∀ {extras : List String}, settings.use arguments = .ok (settings', extras) → P settings')
    (h : (do
        let (settings, extras) ← settings.use arguments
        return (settings, more extras)) = .ok (settings', extras)) : P settings' := by
  obtain ⟨⟨settings'', left⟩, hused, heq⟩ := exists_of_bind_eq_ok h
  obtain rfl := (Prod.mk.inj (Except.ok.inj heq)).1
  exact ih hused

/-- What holds of settings and is kept by every option and by the name of the file also holds of
the settings that arguments lead to. -/
theorem of_use {P : Settings → Prop}
    (hfile : ∀ settings path, P settings → P { settings with file := some path })
    (hvalue : ∀ settings s value settings', P settings →
      settings.withValue s value = .ok settings' → P settings')
    (hswitch : ∀ settings s settings', P settings →
      settings.withSwitch s = .ok settings' → P settings')
    (hstart : P settings) (h : settings.use arguments = .ok (settings', extras)) :
    P settings' := by
  fun_induction Settings.use settings arguments generalizing extras with
  | case1 settings =>
      obtain rfl := (Prod.mk.inj (Except.ok.inj h)).1
      exact hstart
  | case2 settings text rest hnone ih => exact ih (hfile settings text hstart) h
  | case3 settings text rest path hsome ih =>
      exact of_left_over (text :: "--" :: ·) (ih hstart) h
  | case4 settings text rest hrest hnone ih => exact ih (hfile settings text hstart) h
  | case5 settings text rest hrest path hsome ih =>
      exact of_left_over (text :: ·) (ih hstart) h
  | case6 settings rest hnone ih => exact ih hstart h
  | case7 settings rest path hsome ih => exact of_left_over ("--" :: ·) (ih hstart) h
  | case8 settings text rest ih => exact of_left_over (text :: ·) (ih hstart) h
  | case9 settings cs rest => cases h
  | case10 settings s value rest htakes ih =>
      obtain ⟨next, hnext, hrest⟩ := exists_of_bind_eq_ok h
      exact ih next (hvalue settings s _ next hstart hnext) hrest
  | case11 settings s value rest htakes => cases h
  | case12 settings s text rest htakes ih =>
      obtain ⟨next, hnext, hrest⟩ := exists_of_bind_eq_ok h
      exact ih next (hvalue settings s _ next hstart hnext) hrest
  | case13 settings s text rest htakes ih =>
      obtain ⟨next, hnext, hrest⟩ := exists_of_bind_eq_ok h
      exact ih next (hswitch settings s next hstart hnext) hrest
  | case14 settings s rest hrest htakes => cases h
  | case15 settings s rest hrest htakes ih =>
      obtain ⟨next, hnext, hrest⟩ := exists_of_bind_eq_ok h
      exact ih next (hswitch settings s next hstart hnext) hrest

/-- The strategy is one that a session can be started with. -/
def Listed (settings : Settings) : Prop :=
  settings.strategy ∈ Strategy.listed

theorem listed_withValue {s : Switch} {value : String} (h : settings.Listed)
    (hvalue : settings.withValue s value = .ok settings') : settings'.Listed := by
  cases s with
  | strategy =>
      rw [withValue] at hvalue
      split at hvalue
      · cases hvalue
      · rename_i hlisted
        obtain rfl := Except.ok.inj hvalue
        rw [Listed]
        cases hname : Strategy.ofName value with
        | tree => simp [Strategy.listed]
        | vm => simp [Strategy.listed]
        | both => simp [Strategy.listed]
        | unlisted name => exact absurd hname (hlisted name)
  | stackSize =>
      rw [withValue] at hvalue
      split at hvalue
      · obtain rfl := Except.ok.inj hvalue
        exact h
      · cases hvalue
  | help | assembly | emit =>
      obtain rfl := Except.ok.inj hvalue
      exact h

theorem listed_withSwitch {s : Switch} (h : settings.Listed)
    (hswitch : settings.withSwitch s = .ok settings') : settings'.Listed := by
  cases s with
  | help => cases hswitch
  | strategy | stackSize | assembly | emit =>
      obtain rfl := Except.ok.inj hswitch
      exact h

theorem of_check (h : settings.check = .ok settings') :
    settings' = settings ∧ ∀ n, settings.stackSize = some n → 0 ≤ n := by
  rw [check] at h
  split at h
  · cases h
  · rename_i hsize
    have hle : ∀ n, settings.stackSize = some n → 0 ≤ n := by
      intro n hn
      simpa [hn] using hsize
    split at h
    · cases h
    · split at h
      · cases h
      · exact ⟨(Except.ok.inj h).symm, hle⟩

/-- The settings of a command line. -/
theorem listed_of_ofArguments {texts : List String}
    (h : Settings.ofArguments texts = .ok settings) :
    settings.Listed ∧ ∀ n, settings.stackSize = some n → 0 ≤ n := by
  obtain ⟨arguments, -, hrest⟩ := exists_of_bind_eq_ok h
  obtain ⟨⟨used, extras⟩, hused, hchecked⟩ := exists_of_bind_eq_ok hrest
  have hlisted : used.Listed := of_use (fun _ _ h => h) (fun _ _ _ _ h => listed_withValue h)
    (fun _ _ _ h => listed_withSwitch h) (by simp [Listed, Strategy.listed]) hused
  simp only at hchecked
  split at hchecked
  · obtain ⟨rfl, hsize⟩ := of_check hchecked
    exact ⟨hlisted, hsize⟩
  · cases hchecked

end Calculator.Settings
