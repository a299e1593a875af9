import Calculator.Proofs.Expr.Parsing
import Calculator.Proofs.Token.Apart

/-!
Spacing.  The grammar reads the lexemes and the texts of tokens, and of their columns only whether a
number touches the sign before it; so texts of the same words have the same tree, however many
blanks stand between the words.
-/
namespace Calculator.Expr

open Token (Moved)

variable {rank : Rank} {ts : List Token} {ps : List (Token × Token)} {e : Expr} {limit : Nat}
  {s t : String}

/-- Tokens that are moved, and touch as they did, derive the same tree. -/
theorem Derives.moved (h : Derives rank ts e) (hts : ps.map Prod.fst = ts) (hmoved : Moved ps) :
    Derives rank (ps.map Prod.snd) e := by
  induction h generalizing ps with
  | number hlexeme htext =>
      obtain ⟨p, ps, rfl, rfl, hnil⟩ := List.map_eq_cons_iff.mp hts
      obtain rfl := List.map_eq_nil_iff.mp hnil
      obtain ⟨hsame, htexts, -⟩ := hmoved.of_cons
      exact .number (hsame ▸ hlexeme) (htexts ▸ htext)
  | negative hsign hlexeme hnext htext =>
      obtain ⟨p, ps, rfl, rfl, htail⟩ := List.map_eq_cons_iff.mp hts
      obtain ⟨q, qs, rfl, rfl, hnil⟩ := List.map_eq_cons_iff.mp htail
      obtain rfl := List.map_eq_nil_iff.mp hnil
      obtain ⟨hsame, -, hrest⟩ := hmoved.of_cons
      obtain ⟨hsame', htexts, -⟩ := hrest.of_cons
      -- a sign belongs to the number only where the two touch
      have htouch := (List.isChain_cons_cons.mp hmoved.touching).1
      exact .negative (hsame ▸ hsign) (hsame' ▸ hlexeme) (htouch hnext) (htexts ▸ htext)
  | group hleft hinner hright ih =>
      obtain ⟨p, ps, rfl, rfl, htail⟩ := List.map_eq_cons_iff.mp hts
      obtain ⟨inner, last, rfl, hinside, hlast⟩ := List.map_eq_append_iff.mp htail
      obtain ⟨q, qs, rfl, rfl, hnil⟩ := List.map_eq_cons_iff.mp hlast
      obtain rfl := List.map_eq_nil_iff.mp hnil
      obtain ⟨hsame, -, hrest⟩ := hmoved.of_cons
      obtain ⟨hinner', hlast'⟩ := hrest.of_append
      rw [List.map_cons, List.map_append]
      exact .group (hsame ▸ hleft) (ih hinside hinner') (hlast'.of_cons.1 ▸ hright)
  | factor hfactor ih => exact .factor (ih hts hmoved)
  | times hleft hop hrank hright ihleft ihright =>
      obtain ⟨left, rest, rfl, hl, hrest⟩ := List.map_eq_append_iff.mp hts
      obtain ⟨q, right, rfl, rfl, hr⟩ := List.map_eq_cons_iff.mp hrest
      obtain ⟨hleft', hrest'⟩ := hmoved.of_append
      obtain ⟨hsame, -, hright'⟩ := hrest'.of_cons
      rw [List.map_append, List.map_cons]
      exact .times (ihleft hl hleft') (hsame ▸ hop) hrank (ihright hr hright')
  | product hproduct ih => exact .product (ih hts hmoved)
  | plus hleft hop hrank hright ihleft ihright =>
      obtain ⟨left, rest, rfl, hl, hrest⟩ := List.map_eq_append_iff.mp hts
      obtain ⟨q, right, rfl, rfl, hr⟩ := List.map_eq_cons_iff.mp hrest
      obtain ⟨hleft', hrest'⟩ := hmoved.of_append
      obtain ⟨hsame, -, hright'⟩ := hrest'.of_cons
      rw [List.map_append, List.map_cons]
      exact .plus (ihleft hl hleft') (hsame ▸ hop) hrank (ihright hr hright')

/-- Tokens that are moved nest as they did. -/
theorem deepest_moved (hmoved : Moved ps) (depth : Nat) :
    deepest depth (ps.map Prod.snd) = deepest depth (ps.map Prod.fst) := by
  induction ps generalizing depth with
  | nil => rfl
  | cons p ps ih =>
      obtain ⟨hsame, -, hrest⟩ := hmoved.of_cons
      have hafter : openAfter depth p.2 = openAfter depth p.1 := by
        rw [openAfter, openAfter, hsame]
      rw [List.map_cons, List.map_cons, deepest, deepest, hafter, ih hrest]

/-- Texts of the same words are parsed to the same tree. -/
theorem parseWithin_of_words (h : parseWithin limit s = .ok e)
    (hwords : Text.words s.toList = Text.words t.toList) : parseWithin limit t = .ok e := by
  obtain ⟨ts, hscan, hderives, hnesting⟩ := parseWithin_eq_ok_iff.mp h
  obtain ⟨ps, rfl, hscan', hmoved⟩ := Token.exists_moved hscan hwords t 0
  refine parseWithin_eq_ok_iff.mpr ⟨_, hscan', hderives.moved rfl hmoved, ?_⟩
  rwa [nesting, deepest_moved hmoved]

end Calculator.Expr
