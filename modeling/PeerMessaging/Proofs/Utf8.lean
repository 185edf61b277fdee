import PeerMessaging.Text.Utf8
/-!
UTF-8 read back. The strict reader undoes the writer on every scalar value, so reading what was
written gives the text with each lone surrogate replaced by U+FFFD, the replacement the writer
made; text without lone surrogates comes back unchanged, up to the one leading byte order mark
that reading drops.
-/

namespace PeerMessaging.Text

/-- Text without lone surrogates: the host's `toWellFormed` leaves it as it is. -/
def WellFormed (t : Text) : Prop := t.toWellFormed = t

instance (t : Text) : Decidable t.WellFormed := inferInstanceAs (Decidable (t.toWellFormed = t))

/-! The reader, one lemma per kind of leading byte. -/

theorem unitsOfUtf8_one {b : UInt8} (rest : List UInt8) (lead : b < 0x80) :
    unitsOfUtf8 (b :: rest) = (unitsOfUtf8 rest).map (b.toUInt16 :: ·) := by
  cases rest <;> simp [unitsOfUtf8, lead]

theorem unitsOfUtf8_two {b c : UInt8} (rest : List UInt8) (lead : 0xC2 ≤ b ∧ b ≤ 0xDF)
    (tail : isContinuation c) :
    unitsOfUtf8 (b :: c :: rest) =
      (unitsOfUtf8 rest).map (unitsOfCodePoint ((b.toNat - 0xC0) * 0x40 + payloadBits c) ++ ·) := by
  have notOne : ¬ b < 0x80 := by
    simp [UInt8.le_iff_toNat_le, UInt8.lt_iff_toNat_lt] at lead ⊢; omega
  simp [unitsOfUtf8, notOne, lead, tail]

theorem unitsOfUtf8_three {b c d : UInt8} (rest : List UInt8) (lead : 0xE0 ≤ b ∧ b ≤ 0xEF)
    (second : (if b = 0xE0 then 0xA0 else 0x80) ≤ c ∧ c ≤ (if b = 0xED then 0x9F else 0xBF))
    (tail : isContinuation d) :
    unitsOfUtf8 (b :: c :: d :: rest) = (unitsOfUtf8 rest).map
      (unitsOfCodePoint ((b.toNat - 0xE0) * 0x1000 + payloadBits c * 0x40 + payloadBits d) ++ ·) := by
  have notOne : ¬ b < 0x80 := by
    simp [UInt8.le_iff_toNat_le, UInt8.lt_iff_toNat_lt] at lead ⊢; omega
  have notTwo : ¬ b ≤ 0xDF := by
    simp [UInt8.le_iff_toNat_le] at lead ⊢; omega
  simp [unitsOfUtf8, notOne, notTwo, lead, tail, second.1, UInt8.not_lt.mpr second.2]

theorem unitsOfUtf8_four {b c d e : UInt8} (rest : List UInt8) (lead : 0xF0 ≤ b ∧ b ≤ 0xF4)
    (second : (if b = 0xF0 then 0x90 else 0x80) ≤ c ∧ c ≤ (if b = 0xF4 then 0x8F else 0xBF))
    (third : isContinuation d) (fourth : isContinuation e) :
    unitsOfUtf8 (b :: c :: d :: e :: rest) = (unitsOfUtf8 rest).map
      (unitsOfCodePoint ((b.toNat - 0xF0) * 0x40000 + payloadBits c * 0x1000 + payloadBits d * 0x40 +
        payloadBits e) ++ ·) := by
  have notOne : ¬ b < 0x80 := by
    simp [UInt8.le_iff_toNat_le, UInt8.lt_iff_toNat_lt] at lead ⊢; omega
  have notTwo : ¬ b ≤ 0xDF := by
    simp [UInt8.le_iff_toNat_le] at lead ⊢; omega
  have notThree : ¬ b ≤ 0xEF := by
    simp [UInt8.le_iff_toNat_le] at lead ⊢; omega
  simp [unitsOfUtf8, notOne, notTwo, notThree, lead, third, fourth, second.1,
    UInt8.not_lt.mpr second.2]

/-! Each scalar value is read back from its bytes. -/

-- One case per length of the form; in each, the leading byte and the second byte fall in the
-- ranges the reader demands, and the payload bits add up to the code point again.
theorem decode_utf8OfCodePoint (n : Nat) (rest : List UInt8) (scalar : n < 0x110000)
    (notSurrogate : n < 0xD800 ∨ 0xE000 ≤ n) :
    unitsOfUtf8 (utf8OfCodePoint n ++ rest) = (unitsOfUtf8 rest).map (unitsOfCodePoint n ++ ·) := by
  unfold utf8OfCodePoint
  split
  · next one =>
    have lead : n.toUInt8 < 0x80 := by simp [UInt8.lt_iff_toNat_lt]; omega
    rw [List.singleton_append, unitsOfUtf8_one rest lead]
    have same : n.toUInt8.toUInt16 = n.toUInt16 := by
      apply UInt16.toNat.inj
      simp; omega
    simp [unitsOfCodePoint, same, show n < 0x10000 by omega]
  · split
    · next one two =>
      rw [List.cons_append, List.cons_append, List.nil_append,
        unitsOfUtf8_two rest (by simp [UInt8.le_iff_toNat_le]; omega)
          (by simp [isContinuation, UInt8.le_iff_toNat_le]; omega)]
      have point : ((0xC0 + n / 0x40).toUInt8.toNat - 0xC0) * 0x40 +
          payloadBits (0x80 + n % 0x40).toUInt8 = n := by
        simp [payloadBits]; omega
      rw [point]
    · split
      · next one two three =>
        rw [List.cons_append, List.cons_append, List.cons_append, List.nil_append,
          unitsOfUtf8_three rest (by simp [UInt8.le_iff_toNat_le]; omega)
            (by constructor <;> split <;> rename_i h <;>
              simp [UInt8.le_iff_toNat_le, ← UInt8.toNat_inj] at h ⊢ <;> omega)
            (by simp [isContinuation, UInt8.le_iff_toNat_le]; omega)]
        have point : ((0xE0 + n / 0x1000).toUInt8.toNat - 0xE0) * 0x1000 +
            payloadBits (0x80 + n / 0x40 % 0x40).toUInt8 * 0x40 +
            payloadBits (0x80 + n % 0x40).toUInt8 = n := by
          simp [payloadBits]; omega
        rw [point]
      · next one two three =>
        rw [List.cons_append, List.cons_append, List.cons_append, List.cons_append, List.nil_append,
          unitsOfUtf8_four rest (by simp [UInt8.le_iff_toNat_le]; omega)
            (by constructor <;> split <;> rename_i h <;>
              simp [UInt8.le_iff_toNat_le, ← UInt8.toNat_inj] at h ⊢ <;> omega)
            (by simp [isContinuation, UInt8.le_iff_toNat_le]; omega)
            (by simp [isContinuation, UInt8.le_iff_toNat_le]; omega)]
        have point : ((0xF0 + n / 0x40000).toUInt8.toNat - 0xF0) * 0x40000 +
            payloadBits (0x80 + n / 0x1000 % 0x40).toUInt8 * 0x1000 +
            payloadBits (0x80 + n / 0x40 % 0x40).toUInt8 * 0x40 +
            payloadBits (0x80 + n % 0x40).toUInt8 = n := by
          simp [payloadBits]; omega
        rw [point]

theorem unitsOfCodePoint_unit (u : UInt16) : unitsOfCodePoint u.toNat = [u] := by
  simp [unitsOfCodePoint, u.toNat_lt]

theorem unitsOfCodePoint_pair {hi lo : UInt16} (high : isHighSurrogate hi)
    (low : isLowSurrogate lo) : unitsOfCodePoint (pairCodePoint hi lo) = [hi, lo] := by
  simp [isHighSurrogate, isLowSurrogate, UInt16.le_iff_toNat_le] at high low
  unfold unitsOfCodePoint pairCodePoint
  rw [if_neg (by omega)]
  simp only [List.cons.injEq, and_true]
  constructor <;> apply UInt16.toNat.inj <;> simp <;> omega

theorem decode_replacement (rest : List UInt8) :
    unitsOfUtf8 (replacementBytes ++ rest) = (unitsOfUtf8 rest).map (0xFFFD :: ·) := by
  have same : replacementBytes = utf8OfCodePoint 0xFFFD := by
    simp [replacementBytes, utf8OfCodePoint]
  rw [same, decode_utf8OfCodePoint 0xFFFD rest (by decide) (by decide)]
  rfl

theorem decode_unit {u : UInt16} (rest : List UInt8)
    (unit : ¬ (isHighSurrogate u || isLowSurrogate u)) :
    unitsOfUtf8 (utf8OfCodePoint u.toNat ++ rest) = (unitsOfUtf8 rest).map (u :: ·) := by
  have bounds : u.toNat < 0xD800 ∨ 0xE000 ≤ u.toNat := by
    simp [isHighSurrogate, isLowSurrogate, UInt16.le_iff_toNat_le] at unit
    omega
  rw [decode_utf8OfCodePoint _ rest (by have := u.toNat_lt; omega) bounds, unitsOfCodePoint_unit]
  rfl

theorem pairCodePoint_bounds {hi lo : UInt16} (high : isHighSurrogate hi) (low : isLowSurrogate lo) :
    0x10000 ≤ pairCodePoint hi lo ∧ pairCodePoint hi lo < 0x110000 := by
  simp [isHighSurrogate, isLowSurrogate, UInt16.le_iff_toNat_le] at high low
  unfold pairCodePoint
  omega

theorem decode_pair {hi lo : UInt16} (rest : List UInt8) (high : isHighSurrogate hi)
    (low : isLowSurrogate lo) :
    unitsOfUtf8 (utf8OfCodePoint (pairCodePoint hi lo) ++ rest) =
      (unitsOfUtf8 rest).map (hi :: lo :: ·) := by
  have bounds := pairCodePoint_bounds high low
  rw [decode_utf8OfCodePoint _ rest bounds.2 (by omega), unitsOfCodePoint_pair high low]
  rfl

/-! Whole texts. -/

/-- Reading back what writing produced gives the units with each lone surrogate replaced. -/
theorem unitsOfUtf8_utf8OfUnits (us : List UInt16) :
    unitsOfUtf8 (utf8OfUnits us) = some (wellFormedUnits us) := by
  -- The induction follows the writer: a pair, a lone surrogate or a unit of its own at the front.
  fun_induction utf8OfUnits us with
  | case1 => rfl
  | case2 u lone =>
    simpa [wellFormedUnits, lone, unitsOfUtf8] using decode_replacement []
  | case3 u unit =>
    simpa [wellFormedUnits, unit, unitsOfUtf8] using decode_unit [] unit
  | case4 u v rest pair ih =>
    simp only [Bool.and_eq_true] at pair
    rw [decode_pair _ pair.1 pair.2, ih]
    simp [wellFormedUnits, pair]
  | case5 u v rest notPair lone ih =>
    rw [decode_replacement, ih]
    simp [wellFormedUnits, notPair, lone]
  | case6 u v rest notPair unit ih =>
    rw [decode_unit _ unit, ih]
    simp [wellFormedUnits, notPair, unit]

theorem ofUtf8_toUtf8 (t : Text) :
    ofUtf8? t.toUtf8 = some ⟨dropByteOrderMark t.toWellFormed.units⟩ := by
  simp [ofUtf8?, toUtf8, toWellFormed, unitsOfUtf8_utf8OfUnits]

theorem wellFormedUnits_plain {c : UInt16} (after : List UInt16)
    (plain : ¬ (isHighSurrogate c || isLowSurrogate c)) :
    wellFormedUnits (c :: after) = c :: wellFormedUnits after := by
  simp only [Bool.or_eq_true, not_or, Bool.not_eq_true] at plain
  cases after <;> simp [wellFormedUnits, plain]

/-- A unit that is no surrogate separates: the parts on either side are made well formed
apart. -/
theorem wellFormedUnits_around {c : UInt16} (before after : List UInt16)
    (plain : ¬ (isHighSurrogate c || isLowSurrogate c)) :
    wellFormedUnits (before ++ c :: after) = wellFormedUnits before ++ c :: wellFormedUnits after := by
  fun_induction wellFormedUnits before with
  | case1 => simp [wellFormedUnits_plain after plain]
  | case2 u =>
    have notPair : (isHighSurrogate u && isLowSurrogate c) = false := by
      simp only [Bool.or_eq_true, not_or, Bool.not_eq_true] at plain
      simp [plain]
    simp [wellFormedUnits, notPair, wellFormedUnits_plain after plain]
  | case3 u v rest pair ih =>
    simp [wellFormedUnits, pair, ih]
  | case4 u v rest notPair ih =>
    simp only [List.cons_append, wellFormedUnits, notPair]
    rw [← List.cons_append, ih]
    simp

theorem WellFormed.around {a b : Text} {c : UInt16} (left : a.WellFormed) (right : b.WellFormed)
    (plain : ¬ (isHighSurrogate c || isLowSurrogate c)) :
    (⟨a.units ++ c :: b.units⟩ : Text).WellFormed := by
  have left : wellFormedUnits a.units = a.units := congrArg Text.units left
  have right : wellFormedUnits b.units = b.units := congrArg Text.units right
  simp only [WellFormed, toWellFormed]
  rw [wellFormedUnits_around _ _ plain, left, right]

theorem dropByteOrderMark_around {c : UInt16} (before after : List UInt16) (other : c ≠ 0xFEFF) :
    dropByteOrderMark (before ++ c :: after) = dropByteOrderMark before ++ c :: after := by
  cases before with
  | nil => simp [dropByteOrderMark, other]
  | cons u rest =>
    by_cases mark : u = 0xFEFF
    · simp [dropByteOrderMark, mark]
    · simp [dropByteOrderMark, mark]

theorem mem_of_mem_dropByteOrderMark {x : UInt16} {us : List UInt16}
    (member : x ∈ dropByteOrderMark us) : x ∈ us := by
  cases us with
  | nil => simp [dropByteOrderMark] at member
  | cons u rest =>
    by_cases mark : u = 0xFEFF
    · simp only [dropByteOrderMark, mark] at member
      exact List.mem_cons_of_mem u member
    · simpa [dropByteOrderMark, mark] using member

theorem dropByteOrderMark_eq_self (us : List UInt16) :
    dropByteOrderMark us = us ↔ us.head? ≠ some 0xFEFF := by
  cases us with
  | nil => simp [dropByteOrderMark]
  | cons u rest =>
    by_cases mark : u = 0xFEFF
    · simp only [dropByteOrderMark, mark, List.head?_cons, ne_eq, not_true_eq_false, iff_false]
      intro same
      have := congrArg List.length same
      simp at this
    · simp [dropByteOrderMark, mark]

/-- Text without lone surrogates stays as it is in front of anything: the writer's pairing of the
rest starts where the text ends. -/
theorem wellFormedUnits_append {a : List UInt16} (b : List UInt16) (paired : wellFormedUnits a = a) :
    wellFormedUnits (a ++ b) = a ++ wellFormedUnits b := by
  fun_induction wellFormedUnits a with
  | case1 => rfl
  | case2 u =>
    have plain : ¬ (isHighSurrogate u || isLowSurrogate u) := by
      intro surrogate
      simp only [surrogate, if_true, List.cons.injEq, and_true] at paired
      subst paired
      simp [isHighSurrogate, isLowSurrogate] at surrogate
    exact wellFormedUnits_plain b plain
  | case3 u v rest pair ih =>
    simp only [List.cons.injEq, true_and] at paired
    simp [wellFormedUnits, pair, ih paired]
  | case4 u v rest notPair ih =>
    simp only [List.cons.injEq] at paired
    have plain : ¬ (isHighSurrogate u || isLowSurrogate u) := by
      intro surrogate
      simp only [surrogate, if_true] at paired
      have same := paired.1
      subst same
      simp [isHighSurrogate, isLowSurrogate] at surrogate
    simp only [Bool.not_eq_true] at plain
    simp only [List.cons_append, wellFormedUnits, notPair, plain]
    rw [← List.cons_append, ih paired.2]
    simp

theorem WellFormed.append {a b : Text} (left : a.WellFormed) (right : b.WellFormed) : (a ++ b).WellFormed := by
  have left : wellFormedUnits a.units = a.units := congrArg Text.units left
  have right : wellFormedUnits b.units = b.units := congrArg Text.units right
  simp only [WellFormed, toWellFormed, append_units]
  rw [wellFormedUnits_append _ left, right]
  rfl

/-! A line feed is written only for a line feed. -/

theorem toUInt8_ne_lineFeed {k : Nat} (other : k ≠ 0x0A) (small : k < 0x100) : k.toUInt8 ≠ 0x0A := by
  intro same
  have := congrArg UInt8.toNat same
  simp [Nat.toUInt8_eq, UInt8.toNat_ofNat] at this
  omega

theorem utf8OfCodePoint_lineFeed {n : Nat} (other : n ≠ 0x0A) (scalar : n < 0x110000) :
    0x0A ∉ utf8OfCodePoint n := by
  unfold utf8OfCodePoint
  -- every byte but the single one of an ASCII point is at least 0x80
  split
  · simpa using (toUInt8_ne_lineFeed other (by omega)).symm
  split
  · simp only [List.mem_cons, List.not_mem_nil, or_false, not_or]
    refine ⟨?_, ?_⟩ <;> exact (toUInt8_ne_lineFeed (by omega) (by omega)).symm
  split
  · simp only [List.mem_cons, List.not_mem_nil, or_false, not_or]
    refine ⟨?_, ?_, ?_⟩ <;> exact (toUInt8_ne_lineFeed (by omega) (by omega)).symm
  · simp only [List.mem_cons, List.not_mem_nil, or_false, not_or]
    refine ⟨?_, ?_, ?_, ?_⟩ <;> exact (toUInt8_ne_lineFeed (by omega) (by omega)).symm

theorem utf8OfUnits_lineFeed {us : List UInt16} (clear : 0x0A ∉ us) : 0x0A ∉ utf8OfUnits us := by
  fun_induction utf8OfUnits us with
  | case1 => simp
  | case2 u => decide
  | case3 u =>
    simp only [List.mem_singleton] at clear
    exact utf8OfCodePoint_lineFeed (by simpa [← UInt16.toNat_inj] using Ne.symm clear)
      (by have := u.toNat_lt; omega)
  | case4 u v rest pair ih =>
    simp only [Bool.and_eq_true] at pair
    have bounds := pairCodePoint_bounds pair.1 pair.2
    simp only [List.mem_append, not_or]
    exact ⟨utf8OfCodePoint_lineFeed (by omega) bounds.2, ih (by simp_all)⟩
  | case5 u v rest _ _ ih =>
    simp only [List.mem_append, not_or]
    exact ⟨by decide, ih (by simp_all)⟩
  | case6 u v rest _ _ ih =>
    simp only [List.mem_append, not_or, List.mem_cons] at clear ⊢
    refine ⟨utf8OfCodePoint_lineFeed (by simpa [← UInt16.toNat_inj] using Ne.symm clear.1)
      (by have := u.toNat_lt; omega), ih (by simpa using clear.2)⟩

/-! Writing never produces nothing from something. -/

theorem utf8OfCodePoint_ne_nil (n : Nat) : utf8OfCodePoint n ≠ [] := by
  unfold utf8OfCodePoint
  repeat' split
  all_goals simp

theorem utf8OfUnits_ne_nil {us : List UInt16} (nonempty : us ≠ []) : utf8OfUnits us ≠ [] := by
  fun_cases utf8OfUnits us <;> simp_all [replacementBytes, utf8OfCodePoint_ne_nil]

end PeerMessaging.Text
