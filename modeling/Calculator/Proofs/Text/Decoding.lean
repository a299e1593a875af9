import Calculator.Text.Utf8
import Mathlib.Data.List.Basic

/-!
Decoding of plain text.  The octet of an ASCII character is the character, and no octet of another
one, so a text of such characters is decoded as it is, however many chunks it takes.
-/
namespace Calculator.Text.Utf8

variable {c : Char} {cs : List Char} {fuel : Nat}

/-- The character is one octet. -/
def IsPlain (c : Char) : Prop :=
  c.toNat < 128

instance (c : Char) : Decidable (IsPlain c) :=
  inferInstanceAs (Decidable (c.toNat < 128))

/-- The octets of a text of plain characters. -/
def octets (cs : List Char) : List UInt8 :=
  cs.map fun c => c.toNat.toUInt8

theorem toNat_octet (h : IsPlain c) : c.toNat.toUInt8.toNat = c.toNat :=
  Nat.mod_eq_of_lt (Nat.lt_trans h (by decide))

theorem lead?_octet (h : IsPlain c) : lead? c.toNat.toUInt8 = some (0, 0x80, 0xBF) := by
  apply if_pos
  rw [UInt8.le_iff_toNat_le, toNat_octet h]
  exact Nat.le_of_lt_succ h

theorem front_octet (h : IsPlain c) (bs : List UInt8) :
    front c.toNat.toUInt8 bs = .char c 1 := by
  simp only [front, lead?_octet h, toNat_octet h, Char.ofNat_toNat]

/-- Plain characters are read one by one, and nothing is cut off behind them. -/
theorem decodeFrom_octets (h : ∀ c ∈ cs, IsPlain c) (position : Nat) :
    decodeFrom position 0 (octets cs) = .ok (cs, []) := by
  induction cs generalizing position with
  | nil => rfl
  | cons c cs ih =>
      obtain ⟨hc, hcs⟩ := List.forall_mem_cons.mp h
      have hrest := ih hcs (position + 1)
      simp only [octets, List.map_cons, decodeFrom, front_octet hc] at hrest ⊢
      rw [hrest]
      rfl

/-- With octets left and none waiting, the next chunk is decoded before the rest. -/
theorem decodeChunks_cons (fuel : Nat) (b : UInt8) (bs : List UInt8) :
    decodeChunks (fuel + 1) [] (b :: bs) = (do
      let (cs, rest) ← decodeFrom 0 0 ((b :: bs).take chunkSize)
      return cs ++ (← decodeChunks fuel rest ((b :: bs).drop chunkSize))) := by
  rfl

theorem decodeChunks_octets (h : ∀ c ∈ cs, IsPlain c) (hfuel : cs.length < fuel) :
    decodeChunks fuel [] (octets cs) = .ok cs := by
  induction fuel generalizing cs with
  | zero => exact absurd hfuel (Nat.not_lt_zero _)
  | succ fuel ih =>
      cases cs with
      | nil => rfl
      | cons c cs =>
          have hchunk : decodeFrom 0 0 ((octets (c :: cs)).take chunkSize) =
              .ok ((c :: cs).take chunkSize, []) := by
            rw [octets, ← List.map_take]
            exact decodeFrom_octets (fun d hd => h d (List.mem_of_mem_take hd)) 0
          have hshorter : ((c :: cs).drop chunkSize).length < fuel := by
            rw [List.length_drop, chunkSize]
            rw [List.length_cons] at hfuel ⊢
            omega
          have hrest : decodeChunks fuel [] ((octets (c :: cs)).drop chunkSize) =
              .ok ((c :: cs).drop chunkSize) := by
            rw [octets, ← List.map_drop]
            exact ih (fun d hd => h d (List.mem_of_mem_drop hd)) hshorter
          rw [octets, List.map_cons] at hchunk hrest ⊢
          rw [decodeChunks_cons, hchunk]
          change decodeChunks fuel [] _ >>= _ = _
          rw [hrest]
          exact congrArg Except.ok (List.take_append_drop _ _)

/-- A text of plain characters is decoded as it is. -/
theorem decode_octets (h : ∀ c ∈ cs, IsPlain c) : decode (octets cs) = .ok cs := by
  refine decodeChunks_octets h ?_
  rw [octets, List.length_map]
  exact Nat.lt_add_of_pos_right (by decide)

end Calculator.Text.Utf8
