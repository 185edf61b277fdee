import PeerMessaging.Proofs.FloatFields
import PeerMessaging.Proofs.ShortestDigits
import PeerMessaging.Json.Read
import PeerMessaging.Number.Format

/-! The text of a finite number reads back as that number. The printer lays the shortest
digits out in one of four forms (`ddd000`, `dd.ddd`, `0.000ddd`, `d.ddde±x`); each is an integer
part, a fraction and an optional exponent in the reader's grammar, spelling the same decimal, and
that decimal lies in the number's rounding interval. -/

namespace PeerMessaging.Number

open Json

def digitUnits (ds : List Nat) : List UInt16 := ds.map fun d => (48 + d).toUInt16

theorem units_append (s t : String) :
    (Text.ofString (s ++ t)).units = (Text.ofString s).units ++ (Text.ofString t).units := by
  simp [Text.ofString, String.toList_append]

theorem units_ofList {cs : List Char} (narrow : ∀ c ∈ cs, c.toNat < 0x10000) :
    (Text.ofString (String.ofList cs)).units = cs.map fun c => c.toNat.toUInt16 := by
  simp only [Text.ofString, String.toList_ofList]
  induction cs with
  | nil => rfl
  | cons c cs ih =>
    rw [List.flatMap_cons, List.map_cons, ih (fun c' mem => narrow c' (.tail _ mem))]
    unfold Text.unitsOfCodePoint
    rw [if_pos (narrow c (.head _))]
    rfl

theorem toNat_digitChar {d : Nat} (digit : d < 10) : (Char.ofNat (48 + d)).toNat = 48 + d := by
  interval_cases d <;> rfl

theorem units_digitText {ds : List Nat} (digits : ∀ d ∈ ds, d < 10) :
    (Text.ofString (digitText ds)).units = digitUnits ds := by
  unfold digitText digitUnits
  rw [units_ofList (by
    intro c mem
    obtain ⟨d, mem', rfl⟩ := List.mem_map.1 mem
    rw [toNat_digitChar (digits d mem')]; have := digits d mem'; omega), List.map_map]
  apply List.map_congr_left
  intro d mem
  simp only [Function.comp_apply, toNat_digitChar (digits d mem)]

theorem digitsOf_lt (n : Nat) : ∀ d ∈ digitsOf n, d < 10 := by
  induction n using Nat.strong_induction_on with
  | _ n ih =>
    rw [digitsOf]
    split
    · simp; omega
    · intro d mem
      rcases List.mem_append.1 mem with front | last
      · exact ih (n / 10) (by omega) d front
      · simp at last; omega

theorem digitChar_eq {d : Nat} (digit : d < 10) : Nat.digitChar d = Char.ofNat (48 + d) := by
  interval_cases d <;> rfl

theorem toDigits_eq (n : Nat) : Nat.toDigits 10 n = (digitsOf n).map Nat.digitChar := by
  induction n using Nat.strong_induction_on with
  | _ n ih =>
    rw [Nat.toDigits_eq_if (by decide), digitsOf]
    split
    · rfl
    · rw [ih (n / 10) (by omega), List.map_append]
      rfl

theorem units_toString (n : Nat) : (Text.ofString (toString n)).units = digitUnits (digitsOf n) := by
  rw [Nat.toString_eq_ofList_toDigits, toDigits_eq]
  have same : (digitsOf n).map Nat.digitChar = (digitsOf n).map fun d => Char.ofNat (48 + d) :=
    List.map_congr_left fun d mem => digitChar_eq (digitsOf_lt n d mem)
  rw [same]
  exact units_digitText (digitsOf_lt n)

def decimalValue (ds : List Nat) : Nat := ds.foldl (fun acc d => acc * 10 + d) 0

theorem foldl_digits (ds : List Nat) (start : Nat) :
    ds.foldl (fun acc d => acc * 10 + d) start = start * 10 ^ ds.length + decimalValue ds := by
  induction ds generalizing start with
  | nil => simp [decimalValue]
  | cons d ds ih =>
    simp only [List.foldl_cons, decimalValue, List.length_cons]
    rw [ih, ih (0 * 10 + d)]
    ring

theorem decimalValue_append (a b : List Nat) :
    decimalValue (a ++ b) = decimalValue a * 10 ^ b.length + decimalValue b := by
  rw [decimalValue, List.foldl_append, foldl_digits]
  rfl

theorem decimalValue_digitsOf (n : Nat) : decimalValue (digitsOf n) = n := by
  induction n using Nat.strong_induction_on with
  | _ n ih =>
    rw [digitsOf]
    split
    · simp [decimalValue]
    · rw [decimalValue_append, ih (n / 10) (by omega)]
      simp [decimalValue]
      omega

theorem decimalValue_replicate_zero (k : Nat) (ds : List Nat) :
    decimalValue (List.replicate k 0 ++ ds) = decimalValue ds := by
  rw [decimalValue_append]
  induction k with
  | zero => simp [decimalValue]
  | succ k ih => simp_all [List.replicate_succ, decimalValue]

theorem digitsOf_ne_nil (n : Nat) : digitsOf n ≠ [] := by
  rw [digitsOf]; split <;> simp

theorem head_digitsOf {n : Nat} (pos : 0 < n) : ∃ d rest, digitsOf n = d :: rest ∧ 0 < d := by
  induction n using Nat.strong_induction_on with
  | _ n ih =>
    rw [digitsOf]
    split
    · exact ⟨n, [], rfl, pos⟩
    · obtain ⟨d, rest, eq, lead⟩ := ih (n / 10) (by omega) (by omega)
      exact ⟨d, rest ++ [n % 10], by rw [eq]; rfl, lead⟩

theorem digitsValue_digitUnits {ds : List Nat} (digits : ∀ d ∈ ds, d < 10) :
    Json.digitsValue (digitUnits ds) = decimalValue ds := by
  unfold Json.digitsValue digitUnits decimalValue
  rw [List.foldl_map]
  apply List.foldl_ext
  intro acc d mem
  have := digits d mem
  congr 1
  rw [Nat.toUInt16_eq, UInt16.toNat_ofNat_of_lt' (by simp [UInt16.size]; omega)]
  omega

theorem isDigit_digitUnit {d : Nat} (digit : d < 10) : isDigit (48 + d).toUInt16 = true := by
  interval_cases d <;> rfl

def EndsNumber (rest : List UInt16) : Prop :=
  ∀ u ∈ rest.head?, isDigit u = false ∧ u ≠ 0x2E ∧ u ≠ 0x65 ∧ u ≠ 0x45

theorem takeWhile_digitUnits {ds : List Nat} (digits : ∀ d ∈ ds, d < 10) {rest : List UInt16}
    (stops : ∀ u ∈ rest.head?, isDigit u = false) :
    (digitUnits ds ++ rest).takeWhile isDigit = digitUnits ds := by
  induction ds with
  | nil =>
    cases rest with
    | nil => rfl
    | cons u rest => simp [digitUnits, stops u rfl]
  | cons d ds ih =>
    simp only [digitUnits, List.map_cons, List.cons_append, List.takeWhile_cons,
      isDigit_digitUnit (digits d (.head _)), ↓reduceIte]
    exact congrArg _ (ih fun d' mem => digits d' (.tail _ mem))

theorem digitUnits_append (a b : List Nat) : digitUnits (a ++ b) = digitUnits a ++ digitUnits b :=
  List.map_append

theorem length_digitUnits (ds : List Nat) : (digitUnits ds).length = ds.length := List.length_map _

theorem readSign_digit {d : Nat} (digit : d < 10) (rest : List UInt16) :
    readSign ((48 + d).toUInt16 :: rest) = (false, (48 + d).toUInt16 :: rest) := by
  interval_cases d <;> rfl

theorem readWhole_digits {d : Nat} {ds : List Nat} (lead : 0 < d) (digits : ∀ e ∈ d :: ds, e < 10)
    {rest : List UInt16} (stops : ∀ u ∈ rest.head?, isDigit u = false) :
    readWhole (digitUnits (d :: ds) ++ rest) = digitUnits (d :: ds) := by
  have digit := digits d (.head _)
  have notZero : (48 + d).toUInt16 ≠ 0x30 := by interval_cases d <;> decide
  unfold readWhole
  split
  next r head =>
    simp only [digitUnits, List.map_cons, List.cons_append, List.cons.injEq] at head
    exact absurd head.1 notZero
  next => exact takeWhile_digitUnits digits stops

def fractionUnits (fraction : List Nat) : List UInt16 :=
  if fraction = [] then [] else 0x2E :: digitUnits fraction

theorem readFraction_units {fraction : List Nat} (digits : ∀ d ∈ fraction, d < 10) {rest : List UInt16}
    (stops : ∀ u ∈ rest.head?, isDigit u = false ∧ u ≠ 0x2E) :
    readFraction (fractionUnits fraction ++ rest) = some (digitUnits fraction, rest) := by
  unfold fractionUnits
  split
  next none =>
    subst none
    unfold readFraction
    split
    next r head =>
      simp only [List.nil_append] at head
      exact absurd (stops 0x2E (by rw [head]; rfl)).2 (by decide)
    next => rfl
  next some =>
    have ends : ∀ u ∈ rest.head?, isDigit u = false := fun u mem => (stops u mem).1
    unfold readFraction
    simp only [List.cons_append, takeWhile_digitUnits digits ends]
    have nonempty : (digitUnits fraction).isEmpty = false := by simp [digitUnits, some]
    rw [nonempty]
    simp [digitUnits]

def exponentUnits (power : Int) : List UInt16 :=
  0x65 :: (if power < 0 then 0x2D else 0x2B) :: digitUnits (digitsOf power.natAbs)

theorem readExponent_units (power : Int) {rest : List UInt16} (stops : ∀ u ∈ rest.head?, isDigit u = false) :
    readExponent (exponentUnits power ++ rest) = some (power, rest) := by
  have scan := takeWhile_digitUnits (digitsOf_lt power.natAbs) stops
  have nonempty : (digitUnits (digitsOf power.natAbs)).isEmpty = false := by
    simp [digitUnits, digitsOf_ne_nil]
  have value := digitsValue_digitUnits (digitsOf_lt power.natAbs)
  rw [decimalValue_digitsOf] at value
  unfold exponentUnits readExponent
  simp only [List.cons_append]
  rw [if_pos (by decide)]
  split
  next negative =>
    simp only [readExponentSign, scan, nonempty, value, Bool.false_eq_true, ↓reduceIte,
      List.drop_left, Option.some.injEq, Prod.mk.injEq, and_true]
    omega
  next positive =>
    simp only [readExponentSign, scan, nonempty, value, Bool.false_eq_true, ↓reduceIte,
      List.drop_left, Option.some.injEq, Prod.mk.injEq, and_true]
    omega

theorem readExponent_end {rest : List UInt16} (ends : EndsNumber rest) : readExponent rest = some (0, rest) := by
  cases rest with
  | nil => rfl
  | cons u rest =>
    obtain ⟨-, -, notSmall, notCapital⟩ := ends u rfl
    unfold readExponent
    simp [notSmall, notCapital]

/-- The reader's grammar: an optional minus sign, an integer part that is `0` or starts with a
nonzero digit, an optional fraction and an optional exponent, followed by text that cannot
continue the number, reads as the decimal its digits spell. -/
theorem readNumber_parts (negative : Bool) {whole fraction : List Nat} (power : Option Int)
    {rest : List UInt16} (lead : whole = [0] ∨ ∃ d ds, whole = d :: ds ∧ 0 < d)
    (digits : ∀ d ∈ whole ++ fraction, d < 10) (ends : EndsNumber rest) :
    readNumber ((if negative then [0x2D] else []) ++ (digitUnits whole ++ (fractionUnits fraction ++
        (power.elim [] exponentUnits ++ rest)))) =
      some (roundDecimal negative (decimalValue (whole ++ fraction)) (power.getD 0 - fraction.length), rest) := by
  have wholeDigits : ∀ d ∈ whole, d < 10 := fun d mem => digits d (List.mem_append_left _ mem)
  have fractionDigits : ∀ d ∈ fraction, d < 10 := fun d mem => digits d (List.mem_append_right _ mem)
  -- from the back: the exponent, the fraction, the integer part, the sign
  have exponentStops : ∀ u ∈ (power.elim [] exponentUnits ++ rest).head?, isDigit u = false ∧ u ≠ 0x2E := by
    cases power with
    | none => exact fun u mem => ⟨(ends u mem).1, (ends u mem).2.1⟩
    | some p => intro u mem; simp [exponentUnits] at mem; subst mem; decide
  have readsExponent : readExponent (power.elim [] exponentUnits ++ rest) = some (power.getD 0, rest) := by
    cases power with
    | none => exact readExponent_end ends
    | some p => exact readExponent_units p fun u mem => (ends u mem).1
  have readsFraction := readFraction_units fractionDigits exponentStops
  have fractionStops : ∀ u ∈ (fractionUnits fraction ++ (power.elim [] exponentUnits ++ rest)).head?,
      isDigit u = false := by
    unfold fractionUnits
    split
    · exact fun u mem => (exponentStops u mem).1
    · intro u mem; simp at mem; subst mem; decide
  have readsWhole : readWhole (digitUnits whole ++ (fractionUnits fraction ++
      (power.elim [] exponentUnits ++ rest))) = digitUnits whole := by
    rcases lead with zero | ⟨d, ds, rfl, pos⟩
    · subst zero; rfl
    · exact readWhole_digits pos wholeDigits fractionStops
  have readsSign : readSign ((if negative then [0x2D] else []) ++ (digitUnits whole ++ (fractionUnits fraction ++
      (power.elim [] exponentUnits ++ rest)))) = (negative, digitUnits whole ++ (fractionUnits fraction ++
      (power.elim [] exponentUnits ++ rest))) := by
    cases negative with
    | true => rfl
    | false =>
      rcases lead with zero | ⟨d, ds, rfl, pos⟩
      · subst zero; rfl
      · exact readSign_digit (wholeDigits d (.head _)) _
  have nonempty : (digitUnits whole).isEmpty = false := by
    rcases lead with zero | ⟨d, ds, rfl, pos⟩ <;> simp_all [digitUnits]
  unfold readNumber
  rw [readsSign]
  dsimp only
  rw [readsWhole, nonempty, if_neg Bool.false_ne_true, List.drop_left' (by rfl), readsFraction]
  simp only [Option.bind_some, readsExponent, Option.map_some]
  rw [← digitUnits_append, digitsValue_digitUnits digits, length_digitUnits]

theorem units_zeros (k : Nat) :
    (Text.ofString (String.ofList (List.replicate k '0'))).units = digitUnits (List.replicate k 0) := by
  rw [units_ofList (fun c mem => by rw [(List.mem_replicate.1 mem).2]; decide)]
  simp [digitUnits, List.map_replicate]

theorem decimalValue_zeros (k : Nat) : decimalValue (List.replicate k 0) = 0 := by
  simpa [decimalValue] using decimalValue_replicate_zero k []

/-- `units` spells the decimal `0.d₁…dₖ · 10^n` of the digits `ds = d₁…dₖ` in the reader's
grammar: an integer part that is `0` or starts with a nonzero digit, a fraction and an optional
exponent, whose value is `d₁…dₖ · 10^(n-k)`. -/
def SpellsDecimal (units : List UInt16) (ds : List Nat) (n : Int) : Prop :=
  ∃ (whole fraction : List Nat) (power : Option Int),
    units = digitUnits whole ++ (fractionUnits fraction ++ power.elim [] exponentUnits) ∧
    (whole = [0] ∨ ∃ d ds, whole = d :: ds ∧ 0 < d) ∧
    (∀ e ∈ whole ++ fraction, e < 10) ∧
    (decimalValue (whole ++ fraction) : ℚ) * 10 ^ (power.getD 0 - fraction.length) =
      decimalValue ds * 10 ^ (n - ds.length)

section Forms

variable {d : Nat} {rest : List Nat}

theorem spells_trailingZeros (lead : 0 < d) (digits : ∀ e ∈ d :: rest, e < 10) {n : Int}
    (fits : ((d :: rest).length : Int) ≤ n) :
    SpellsDecimal (Text.ofString (digitText (d :: rest) ++
      String.ofList (List.replicate (n - (d :: rest).length).toNat '0'))).units (d :: rest) n := by
  obtain ⟨m, hm⟩ : ∃ m : Nat, n - (d :: rest).length = m := ⟨(n - (d :: rest).length).toNat, by omega⟩
  refine ⟨(d :: rest) ++ List.replicate m 0, [], none, ?_, .inr ⟨d, _, rfl, lead⟩, ?_, ?_⟩
  · rw [units_append, units_digitText digits, hm, Int.toNat_natCast, units_zeros, ← digitUnits_append]
    simp [fractionUnits]
  · intro e mem
    rcases List.mem_append.1 (List.append_nil _ ▸ mem) with front | back
    · exact digits e front
    · rw [List.eq_of_mem_replicate back]; norm_num
  · rw [List.append_nil, decimalValue_append, decimalValue_zeros, List.length_replicate, hm, zpow_natCast]
    simp

/-- `dd.ddd`: the point falls inside the digits. -/
theorem spells_innerPoint (lead : 0 < d) (digits : ∀ e ∈ d :: rest, e < 10) {n : Int}
    (inside : 0 < n) (short : n < (d :: rest).length) :
    SpellsDecimal (Text.ofString (digitText ((d :: rest).take n.toNat) ++ "." ++
      digitText ((d :: rest).drop n.toNat))).units (d :: rest) n := by
  obtain ⟨m, rfl⟩ : ∃ m : Nat, n = m + 1 := ⟨n.toNat - 1, by omega⟩
  have restDigits : ∀ e ∈ rest, e < 10 := fun e mem => digits e (.tail _ mem)
  have shorter : m < rest.length := by simp at short; omega
  refine ⟨d :: rest.take m, rest.drop m, none, ?_, .inr ⟨d, _, rfl, lead⟩, ?_, ?_⟩
  · have nonempty : rest.drop m ≠ [] := by simpa using shorter
    have frontDigits : ∀ e ∈ d :: rest.take m, e < 10 := by
      intro e mem
      rcases List.mem_cons.1 mem with same | later
      · exact same ▸ digits d (.head _)
      · exact restDigits e (List.mem_of_mem_take later)
    rw [units_append, units_append, show ((m : Int) + 1).toNat = m + 1 by omega, List.take_succ_cons,
      List.drop_succ_cons, units_digitText frontDigits,
      units_digitText (fun e mem => restDigits e (List.mem_of_mem_drop mem))]
    simp [fractionUnits, nonempty]
    rfl
  · rw [List.cons_append, List.take_append_drop]
    exact digits
  · rw [List.cons_append, List.take_append_drop, List.length_drop]
    simp only [Option.getD_none, List.length_cons]
    congr 2
    omega

/-- `0.000ddd`: zeros between the point and the digits. -/
theorem spells_leadingZeros (digits : ∀ e ∈ d :: rest, e < 10) {n : Int} (nonpos : n ≤ 0) :
    SpellsDecimal (Text.ofString ("0." ++ String.ofList (List.replicate (-n).toNat '0') ++
      digitText (d :: rest))).units (d :: rest) n := by
  refine ⟨[0], List.replicate (-n).toNat 0 ++ d :: rest, none, ?_, .inl rfl, ?_, ?_⟩
  · rw [units_append, units_append, units_zeros, units_digitText digits]
    simp [fractionUnits, digitUnits_append]
    rfl
  · intro e mem
    simp only [List.singleton_append, List.mem_cons, List.mem_append] at mem
    rcases mem with zero | front | back
    · omega
    · rw [List.eq_of_mem_replicate front]; norm_num
    · exact digits e (List.mem_cons.2 back)
  · rw [List.singleton_append, show 0 :: (List.replicate (-n).toNat 0 ++ d :: rest) =
      List.replicate ((-n).toNat + 1) 0 ++ d :: rest by simp [List.replicate_succ],
      decimalValue_replicate_zero]
    simp only [Option.getD_none, List.length_append, List.length_replicate, List.length_cons]
    congr 2
    omega

theorem spells_exponent (digits : ∀ e ∈ d :: rest, e < 10) (lead : 0 < d) {mantissa : String}
    (spelled : (Text.ofString mantissa).units = digitUnits [d] ++ fractionUnits rest) (n : Int) :
    SpellsDecimal (Text.ofString (mantissa ++ "e" ++ (if n - 1 < 0 then "-" else "+") ++
      toString (n - 1).natAbs)).units (d :: rest) n := by
  refine ⟨[d], rest, some (n - 1), ?_, .inr ⟨d, [], rfl, lead⟩, by simpa using digits, ?_⟩
  · simp only [units_append, spelled, units_toString, Option.elim_some, List.append_assoc]
    unfold exponentUnits
    by_cases negative : n - 1 < 0
    · simp only [if_pos negative]; rfl
    · simp only [if_neg negative]; rfl
  · simp only [List.singleton_append, Option.getD_some, List.length_cons]
    congr 2
    omega

end Forms

/-- The four forms of the printer each spell the decimal `0.d₁…dₖ · 10^n` of the shortest digits. -/
theorem placeDigits_parts {d : Nat} {rest : List Nat} (lead : 0 < d) (digits : ∀ e ∈ d :: rest, e < 10)
    (n : Int) :
    SpellsDecimal (Text.ofString (NumberFormat.standard.placeDigits (d :: rest) n)).units (d :: rest) n := by
  unfold NumberFormat.placeDigits NumberFormat.standard
  dsimp only
  by_cases positional : ((d :: rest).length : Int) ≤ n ∧ n ≤ 21
  · rw [if_pos positional]
    exact spells_trailingZeros lead digits positional.1
  rw [if_neg positional]
  by_cases inside : 0 < n ∧ n ≤ 21
  · rw [if_pos inside]
    exact spells_innerPoint lead digits inside.1 (by omega)
  rw [if_neg inside]
  by_cases small : -6 < n ∧ n ≤ 0
  · rw [if_pos small]
    exact spells_leadingZeros digits small.2
  rw [if_neg small]
  -- the mantissa is the lead digit, then the other digits after a point when there are any
  have lead' : ∀ x ∈ [d], x < 10 := fun x mem => digits x (List.mem_cons.2 (.inl (List.mem_singleton.1 mem)))
  cases rest with
  | nil =>
    refine spells_exponent digits lead ?_ n
    simp [units_digitText lead', fractionUnits]
  | cons e more =>
    refine spells_exponent digits lead ?_ n
    simp only [units_append, units_digitText lead', units_digitText (fun x mem => digits x (.tail _ mem))]
    simp [fractionUnits]
    rfl

/-- The text of a finite nonzero number: a sign, then an integer part, a fraction and an optional
exponent in the reader's grammar, spelling a decimal in the number's rounding interval. -/
theorem render_parts {x : Float} (finite : x.isFinite = true) (nonzero : ¬(x == 0) = true) :
    ∃ (whole fraction : List Nat) (power : Option Int),
      (Text.ofString (render x)).units = (if isNegative x then [0x2D] else []) ++
        (digitUnits whole ++ (fractionUnits fraction ++ power.elim [] exponentUnits)) ∧
      (whole = [0] ∨ ∃ d ds, whole = d :: ds ∧ 0 < d) ∧ (∀ e ∈ whole ++ fraction, e < 10) ∧
      Rounds (significand x) (exponent x)
        ((decimalValue (whole ++ fraction) : ℚ) * 10 ^ (power.getD 0 - fraction.length)) := by
  obtain ⟨notNaN, notInf⟩ := not_nan_of_isFinite x finite
  have legal := legal_fields ((isFinite_iff x).1 finite) (fun both => nonzero ((beq_zero_iff x).2 both))
  obtain ⟨d, more, spelled, lead⟩ := head_digitsOf (shortest_pos legal)
  obtain ⟨whole, fraction, power, units, wholeLead, digits, value⟩ :=
    placeDigits_parts lead (spelled ▸ digitsOf_lt _) ((shortest (significand x) (exponent x)).exponent +
      (d :: more).length)
  refine ⟨whole, fraction, power, ?_, wholeLead, digits, ?_⟩
  · have sign : (Text.ofString (if isNegative x = true then "-" else "")).units =
        if isNegative x then [0x2D] else [] := by
      split <;> rfl
    unfold render NumberFormat.render shortestOf
    rw [notNaN, if_neg nonzero, notInf]
    simp only [Bool.false_eq_true, ↓reduceIte]
    rw [spelled, units_append, units, sign]
  · rw [value, ← spelled, decimalValue_digitsOf]
    simpa using shortest_rounds legal

/-- Every finite number's text reads back as the number, except that negative zero reads as zero. -/
theorem readNumber_render {x : Float} (finite : x.isFinite = true) {rest : List UInt16}
    (ends : EndsNumber rest) :
    readNumber ((Text.ofString (render x)).units ++ rest) = some (if x == 0 then 0 else x, rest) := by
  by_cases zero : (x == 0) = true
  · have text : render x = "0" := by
      unfold render NumberFormat.render
      rw [(not_nan_of_isFinite x finite).1, if_pos zero]
      rfl
    rw [if_pos zero, text]
    exact @readNumber_parts false [0] [] none _ (.inl rfl) (by simp) ends
  · obtain ⟨whole, fraction, power, units, wholeLead, digits, rounds⟩ := render_parts finite zero
    have nonzero := fun both => zero ((beq_zero_iff x).2 both)
    rw [if_neg zero, units, List.append_assoc, List.append_assoc, List.append_assoc,
      readNumber_parts (isNegative x) power wholeLead digits ends,
      roundDecimal_of_rounds (legal_fields ((isFinite_iff x).1 finite) nonzero) rounds,
      ofParts_fields ((isFinite_iff x).1 finite) nonzero]

theorem digitUnits_ascii {ds : List Nat} (digits : ∀ d ∈ ds, d < 10) :
    ∀ u ∈ digitUnits ds, u < 0x80 ∧ u ≠ 0x0A := by
  intro u member
  obtain ⟨d, mem, rfl⟩ := List.mem_map.1 member
  have digit := digits d mem
  interval_cases d <;> decide

/-- A finite number's text is ASCII without a line feed. -/
theorem render_ascii {x : Float} (finite : x.isFinite = true) :
    ∀ u ∈ (Text.ofString (render x)).units, u < 0x80 ∧ u ≠ 0x0A := by
  by_cases zero : (x == 0) = true
  · have text : render x = "0" := by
      unfold render NumberFormat.render
      rw [(not_nan_of_isFinite x finite).1, if_pos zero]
      rfl
    have units : (Text.ofString "0").units = [0x30] := rfl
    rw [text, units]
    intro u member
    rw [List.mem_singleton.1 member]
    decide
  obtain ⟨whole, fraction, power, units, -, digits, -⟩ := render_parts finite zero
  have wholeDigits := digitUnits_ascii fun d mem => digits d (List.mem_append_left _ mem)
  have fractionDigits := digitUnits_ascii fun d mem => digits d (List.mem_append_right _ mem)
  rw [units]
  intro u member
  simp only [List.mem_append] at member
  rcases member with sign | front | back | exponent
  · split at sign <;> simp_all
  · exact wholeDigits u front
  · unfold fractionUnits at back
    split at back
    · simp at back
    · rcases List.mem_cons.1 back with point | back
      · subst point; decide
      · exact fractionDigits u back
  · cases power with
    | none => simp at exponent
    | some p =>
      simp only [Option.elim, exponentUnits, List.mem_cons] at exponent
      rcases exponent with mark | sign | digit
      · subst mark; decide
      · subst sign; split <;> decide
      · exact digitUnits_ascii (digitsOf_lt _) u digit

end PeerMessaging.Number
