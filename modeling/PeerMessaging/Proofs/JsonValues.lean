import PeerMessaging.Proofs.NumberText
import PeerMessaging.Proofs.Utf8
import PeerMessaging.Json.Write
import PeerMessaging.JsonLines.Message
/-!
JSON text read back. A wire value's text is read as its image: the same value, except that
negative zero reads as zero and every object reads as a plain object whose keys are defined in
the order they were written. The text also fits on one line of UTF-8: it holds no line feed and no
lone surrogate, since the writer escapes both.

The reader runs on fuel; text of length `n` reads back with any fuel above `n`, since every
level of nesting and every element costs at least one unit of text.
-/

namespace PeerMessaging

namespace Value

mutual

def jsonImage : Value → Value
  | .number x => .number (if x == 0 then 0 else x)
  | .array items => .array (jsonImages items)
  | .object _ props => .object .plain (Props.ofList (jsonImageProps props))
  | v => v

def jsonImages : List Value → List Value
  | [] => []
  | v :: rest => jsonImage v :: jsonImages rest

def jsonImageProps : List (Text × Value) → List (Text × Value)
  | [] => []
  | (k, v) :: rest => (k, jsonImage v) :: jsonImageProps rest

end

end Value

namespace Json

theorem hexDigit_hexUnit {k : Nat} (small : k < 16) : hexDigit (hexUnit k) = some k := by
  interval_cases k <;> rfl

theorem readString_unicodeEscape (acc : List UInt16) (u : UInt16) (rest : List UInt16) :
    readString acc (unicodeEscape u ++ rest) = readString (u :: acc) rest := by
  have bound := u.toNat_lt
  unfold unicodeEscape
  simp only [List.cons_append, List.nil_append]
  rw [readString]
  simp only [hexDigit_hexUnit (show u.toNat / 4096 < 16 by omega), hexDigit_hexUnit (Nat.mod_lt _ (by omega))]
  congr
  have whole : u.toNat / 4096 * 4096 + u.toNat / 256 % 16 * 256 + u.toNat / 16 % 16 * 16 + u.toNat % 16 =
      u.toNat := by omega
  rw [whole]
  simp

theorem readString_plain {u : UInt16} (quote : u ≠ 0x22) (backslash : u ≠ 0x5C) (printable : ¬ u < 0x20)
    (acc rest : List UInt16) : readString acc (u :: rest) = readString (u :: acc) rest := by
  rw [readString]
  · simp [printable, backslash]
  all_goals intros; simp_all

theorem readString_escape {e u : UInt16} (escape : escapeUnit e = some u) (acc rest : List UInt16)
    (notHex : e ≠ 0x75) : readString acc (0x5C :: e :: rest) = readString (u :: acc) rest := by
  rw [readString]
  · simp [escape]
  all_goals intros; simp_all

/-- A unit is written as a short escape that reads back as it, as a `\u` escape, or as itself
when it is printable and neither a quote, a backslash nor a surrogate. -/
theorem escapeUnitText_cases (u : UInt16) :
    (∃ c, escapeUnitText u = [0x5C, c] ∧ escapeUnit c = some u ∧ c ≠ 0x75) ∨
      escapeUnitText u = unicodeEscape u ∨
      (escapeUnitText u = [u] ∧ u ≠ 0x22 ∧ u ≠ 0x5C ∧ ¬ u < 0x20 ∧
        (Text.isHighSurrogate u || Text.isLowSurrogate u) = false) := by
  -- the seven units with a short escape, each read back by `escapeUnit`
  by_cases short : u = 0x22 ∨ u = 0x5C ∨ u = 0x08 ∨ u = 0x0C ∨ u = 0x0A ∨ u = 0x0D ∨ u = 0x09
  · left
    rcases short with rfl | rfl | rfl | rfl | rfl | rfl | rfl
    all_goals exact ⟨_, rfl, rfl, by decide⟩
  · simp only [not_or] at short
    obtain ⟨quote, backslash, b, f, n, r, t⟩ := short
    unfold escapeUnitText
    simp only [beq_iff_eq, quote, backslash, b, f, n, r, t, if_false]
    split
    · exact .inr (.inl rfl)
    · next plain =>
      simp only [Bool.or_eq_true, decide_eq_true_eq, not_or, Bool.not_eq_true] at plain
      exact .inr (.inr ⟨rfl, quote, backslash, plain.1.1, by simp [plain.1.2, plain.2]⟩)

theorem readString_escapeUnitText (acc : List UInt16) (u : UInt16) (rest : List UInt16) :
    readString acc (escapeUnitText u ++ rest) = readString (u :: acc) rest := by
  rcases escapeUnitText_cases u with ⟨c, short, escape, notHex⟩ | long | ⟨plain, quote, backslash, printable, -⟩
  · rw [short]
    exact readString_escape escape acc rest notHex
  · rw [long]
    exact readString_unicodeEscape acc u rest
  · rw [plain]
    exact readString_plain quote backslash printable acc rest

theorem surrogate_printable {u : UInt16} (surrogate : (Text.isHighSurrogate u || Text.isLowSurrogate u) = true) :
    u ≠ 0x22 ∧ u ≠ 0x5C ∧ ¬ u < 0x20 := by
  simp only [Text.isHighSurrogate, Text.isLowSurrogate, Bool.or_eq_true, Bool.and_eq_true,
    decide_eq_true_eq, UInt16.le_iff_toNat_le] at surrogate
  simp only [ne_eq, ← UInt16.toNat_inj, UInt16.lt_iff_toNat_lt]
  simp at surrogate ⊢
  omega

/-- The body of a quoted string reads back as the units it escapes, whatever follows the closing
quote. -/
theorem readString_escapeUnits (us : List UInt16) (acc rest : List UInt16) :
    readString acc (escapeUnits us ++ 0x22 :: rest) = some (acc.reverse ++ us, rest) := by
  fun_induction escapeUnits us generalizing acc with
  | case1 => simp [readString]
  | case2 u =>
    rw [readString_escapeUnitText]
    simp [readString]
  | case3 u v more pair ih =>
    simp only [Bool.and_eq_true] at pair
    obtain ⟨uQuote, uBackslash, uPrintable⟩ :=
      surrogate_printable (show (Text.isHighSurrogate u || Text.isLowSurrogate u) = true by simp [pair.1])
    obtain ⟨vQuote, vBackslash, vPrintable⟩ :=
      surrogate_printable (show (Text.isHighSurrogate v || Text.isLowSurrogate v) = true by simp [pair.2])
    rw [List.cons_append, List.cons_append, readString_plain uQuote uBackslash uPrintable,
      readString_plain vQuote vBackslash vPrintable, ih]
    simp
  | case4 u v more _ ih =>
    rw [List.append_assoc, readString_escapeUnitText, ih]
    simp

theorem readNumber_head {input : List UInt16} {x : Float} {rest : List UInt16}
    (read : readNumber input = some (x, rest)) :
    ∃ u r, input = u :: r ∧ (u = 0x2D ∨ isDigit u = true) := by
  match input, read with
  | u :: r, read =>
    refine ⟨u, r, rfl, ?_⟩
    by_cases minus : u = 0x2D
    · exact .inl minus
    · right
      unfold readNumber at read
      have signless : readSign (u :: r) = (false, u :: r) := by
        unfold readSign; split <;> simp_all
      rw [signless] at read
      by_cases zero : u = 0x30
      · subst zero; rfl
      · have whole : readWhole (u :: r) = (u :: r).takeWhile isDigit := by
          unfold readWhole; split <;> simp_all
        simp only [whole] at read
        cases digit : isDigit u
        · simp [digit] at read
        · rfl

theorem skipBlank_cons {u : UInt16} (r : List UInt16) (solid : isBlank u = false) :
    skipBlank (u :: r) = u :: r := by
  simp [skipBlank, solid]

theorem numberStart_solid {u : UInt16} (lead : u = 0x2D ∨ isDigit u = true) :
    isBlank u = false ∧ u ≠ 0x5D := by
  rcases lead with minus | digit
  · subst minus; decide
  · simp only [isDigit, Bool.and_eq_true, decide_eq_true_eq, UInt16.le_iff_toNat_le] at digit
    simp only [isBlank, Bool.or_eq_false_iff, beq_eq_false_iff_ne, ne_eq, ← UInt16.toNat_inj]
    simp at digit ⊢
    omega

theorem readValue_number {input : List UInt16} {x : Float} {rest : List UInt16} (fuel : Nat)
    (read : readNumber input = some (x, rest)) : readValue (fuel + 1) input = some (.number x, rest) := by
  obtain ⟨u, r, rfl, lead⟩ := readNumber_head read
  rw [readValue, skipBlank_cons r (numberStart_solid lead).1]
  split
  case h_7 => simp [read]
  -- every other clause starts with a unit that is neither a minus sign nor a digit
  all_goals
    rename_i same
    obtain ⟨rfl, -⟩ := List.cons.inj same
    exact absurd lead (by decide)

theorem readValue_quote (fuel : Nat) (s : Text) (rest : List UInt16) :
    readValue (fuel + 1) ((quote s).units ++ rest) = some (.string s, rest) := by
  simp only [quote, List.cons_append, List.append_assoc]
  rw [readValue, skipBlank_cons _ rfl]
  simp [readString_escapeUnits]

/-- Text that a line of UTF-8 carries unchanged: no lone surrogate and no line feed. -/
structure OneLine (t : Text) : Prop where
  wellFormed : t.WellFormed
  noLineFeed : 0x0A ∉ t.units

theorem OneLine.append {a b : Text} (left : OneLine a) (right : OneLine b) : OneLine (a ++ b) where
  wellFormed := left.wellFormed.append right.wellFormed
  noLineFeed := by simp [Text.append_units, left.noLineFeed, right.noLineFeed]

theorem wellFormedUnits_of_plain {us : List UInt16}
    (plain : ∀ u ∈ us, (Text.isHighSurrogate u || Text.isLowSurrogate u) = false) :
    Text.wellFormedUnits us = us := by
  induction us with
  | nil => rfl
  | cons u rest ih =>
    rw [Text.wellFormedUnits_plain rest (by simp [plain u (.head _)]), ih (fun w mem => plain w (.tail _ mem))]

theorem oneLine_of_plain {t : Text}
    (plain : ∀ u ∈ t.units, (Text.isHighSurrogate u || Text.isLowSurrogate u) = false ∧ u ≠ 0x0A) :
    OneLine t where
  wellFormed := congrArg Text.mk (wellFormedUnits_of_plain fun u mem => (plain u mem).1)
  noLineFeed := fun mem => (plain _ mem).2 rfl

theorem ascii_plain {u : UInt16} (small : u < 0x80) :
    (Text.isHighSurrogate u || Text.isLowSurrogate u) = false := by
  simp only [Text.isHighSurrogate, Text.isLowSurrogate, Bool.or_eq_false_iff, Bool.and_eq_false_iff,
    decide_eq_false_iff_not, UInt16.le_iff_toNat_le, UInt16.lt_iff_toNat_lt, Nat.not_le] at small ⊢
  simp at small ⊢
  omega

theorem oneLine_of_ascii {t : Text} (ascii : ∀ u ∈ t.units, u < 0x80 ∧ u ≠ 0x0A) : OneLine t :=
  oneLine_of_plain fun u member => ⟨ascii_plain (ascii u member).1, (ascii u member).2⟩

theorem escapeUnit_ascii {c u : UInt16} (escape : escapeUnit c = some u) : c < 0x80 ∧ c ≠ 0x0A := by
  unfold escapeUnit at escape
  split at escape <;> first | decide | simp at escape

theorem hexUnit_ascii {k : Nat} (small : k < 16) : hexUnit k < 0x80 ∧ hexUnit k ≠ 0x0A := by
  interval_cases k <;> decide

/-- An escaped unit holds no surrogate and no line feed: escapes are ASCII, and a unit stands as
itself only when it is printable and no surrogate. -/
theorem escapeUnitText_plain (u : UInt16) :
    ∀ w ∈ escapeUnitText u, (Text.isHighSurrogate w || Text.isLowSurrogate w) = false ∧ w ≠ 0x0A := by
  have ascii : ∀ w : UInt16, w < 0x80 ∧ w ≠ 0x0A →
      (Text.isHighSurrogate w || Text.isLowSurrogate w) = false ∧ w ≠ 0x0A :=
    fun w small => ⟨ascii_plain small.1, small.2⟩
  rcases escapeUnitText_cases u with ⟨c, short, escape, -⟩ | long | ⟨plain, -, -, printable, notSurrogate⟩
  · rw [short]
    intro w member
    simp only [List.mem_cons, List.not_mem_nil, or_false] at member
    rcases member with rfl | rfl
    · exact ascii _ (by decide)
    · exact ascii _ (escapeUnit_ascii escape)
  · have bound := u.toNat_lt
    rw [long]
    intro w member
    simp only [unicodeEscape, List.mem_cons, List.not_mem_nil, or_false] at member
    rcases member with rfl | rfl | rfl | rfl | rfl | rfl
    · exact ascii _ (by decide)
    · exact ascii _ (by decide)
    all_goals exact ascii _ (hexUnit_ascii (by omega))
  · rw [plain]
    intro w member
    rw [List.mem_singleton.1 member]
    refine ⟨notSurrogate, ?_⟩
    rintro rfl
    exact printable (by decide)

theorem oneLine_escapeUnits (us : List UInt16) : OneLine ⟨escapeUnits us⟩ := by
  fun_induction escapeUnits us with
  | case1 => exact oneLine_of_plain (by simp)
  | case2 u => exact oneLine_of_plain (escapeUnitText_plain u)
  | case3 u v more pair ih =>
    have both : OneLine ⟨[u, v]⟩ := by
      simp only [Bool.and_eq_true] at pair
      refine ⟨?_, ?_⟩
      · simp [Text.WellFormed, Text.toWellFormed, Text.wellFormedUnits, pair]
      · have uSide := surrogate_printable (show (Text.isHighSurrogate u || Text.isLowSurrogate u) = true by
          simp [pair.1])
        have vSide := surrogate_printable (show (Text.isHighSurrogate v || Text.isLowSurrogate v) = true by
          simp [pair.2])
        simp only [List.mem_cons, List.not_mem_nil, or_false, not_or]
        constructor
        · rintro rfl; exact uSide.2.2 (by decide)
        · rintro rfl; exact vSide.2.2 (by decide)
    exact both.append ih
  | case4 u v more _ ih => exact (oneLine_of_plain (escapeUnitText_plain u)).append ih

theorem oneLine_lit (s : String) (ascii : ∀ u ∈ (lit s).units, u < 0x80 ∧ u ≠ 0x0A) : OneLine (lit s) :=
  oneLine_of_ascii ascii

theorem oneLine_quote (s : Text) : OneLine (quote s) :=
  show OneLine (lit "\"" ++ ⟨escapeUnits s.units⟩ ++ lit "\"") from
    ((oneLine_lit "\"" (by simp [lit, Text.ofString, Text.unitsOfCodePoint])).append (oneLine_escapeUnits s.units)).append (oneLine_lit "\"" (by simp [lit, Text.ofString, Text.unitsOfCodePoint]))

theorem oneLine_commaJoin {parts : List Text} (each : ∀ t ∈ parts, OneLine t) : OneLine (commaJoin parts) := by
  fun_induction commaJoin parts with
  | case1 => exact oneLine_of_plain (by simp [Text.empty])
  | case2 t => exact each t (.head _)
  | case3 t more _ ih =>
    exact ((each t (.head _)).append (oneLine_lit "," (by simp [lit, Text.ofString, Text.unitsOfCodePoint]))).append
      (ih fun t' member => each t' (.tail _ member))

/-- What the reader makes of the JSON text `t` of a value `v`: the text fits a line, opens with a
unit that is no blank and no closing bracket, and reads back as the value's image whatever
follows it, given fuel beyond its length. -/
structure Written (v : Value) (t : Text) : Prop where
  oneLine : OneLine t
  opens : ∃ u r, t.units = u :: r ∧ isBlank u = false ∧ u ≠ 0x5D
  reads : ∀ fuel rest, t.length < fuel → Number.EndsNumber rest →
    readValue fuel (t.units ++ rest) = some (v.jsonImage, rest)

theorem written_null : Written .null (lit "null") where
  oneLine := oneLine_lit "null" (by simp [lit, Text.ofString, Text.unitsOfCodePoint])
  opens := ⟨0x6E, [0x75, 0x6C, 0x6C], rfl, rfl, by decide⟩
  reads fuel rest _ _ := by
    obtain ⟨f, rfl⟩ : ∃ f, fuel = f + 1 := ⟨fuel - 1, by simp [lit, Text.length] at *; omega⟩
    simp [readValue, lit, Text.ofString, Text.unitsOfCodePoint, skipBlank, isBlank, Value.jsonImage]

theorem written_bool (b : Bool) : Written (.bool b) (lit (if b then "true" else "false")) := by
  cases b with
  | true =>
    refine ⟨oneLine_lit "true" (by simp [lit, Text.ofString, Text.unitsOfCodePoint]),
      ⟨0x74, [0x72, 0x75, 0x65], rfl, rfl, by decide⟩, ?_⟩
    intro fuel rest _ _
    obtain ⟨f, rfl⟩ : ∃ f, fuel = f + 1 := ⟨fuel - 1, by simp [lit, Text.length] at *; omega⟩
    simp [readValue, lit, Text.ofString, Text.unitsOfCodePoint, skipBlank, isBlank, Value.jsonImage]
  | false =>
    refine ⟨oneLine_lit "false" (by simp [lit, Text.ofString, Text.unitsOfCodePoint]),
      ⟨0x66, [0x61, 0x6C, 0x73, 0x65], rfl, rfl, by decide⟩, ?_⟩
    intro fuel rest _ _
    obtain ⟨f, rfl⟩ : ∃ f, fuel = f + 1 := ⟨fuel - 1, by simp [lit, Text.length] at *; omega⟩
    simp [readValue, lit, Text.ofString, Text.unitsOfCodePoint, skipBlank, isBlank, Value.jsonImage]

theorem endsNumber_nil : Number.EndsNumber [] := by
  intro u member
  cases member

theorem written_number {x : Float} (finite : x.isFinite = true) : Written (.number x) (Value.numberText x) where
  oneLine := oneLine_of_ascii (Number.render_ascii finite)
  opens := by
    have read := Number.readNumber_render finite endsNumber_nil
    rw [List.append_nil] at read
    obtain ⟨u, r, units, lead⟩ := readNumber_head read
    exact ⟨u, r, units, numberStart_solid lead⟩
  reads fuel rest _ ends := by
    obtain ⟨f, rfl⟩ : ∃ f, fuel = f + 1 := ⟨fuel - 1, by omega⟩
    exact readValue_number f (Number.readNumber_render finite ends)

theorem written_string (s : Text) : Written (.string s) (quote s) where
  oneLine := oneLine_quote s
  opens := ⟨0x22, _, rfl, rfl, by decide⟩
  reads fuel rest long _ := by
    obtain ⟨f, rfl⟩ : ∃ f, fuel = f + 1 := ⟨fuel - 1, by simp [quote, Text.length] at long; omega⟩
    exact readValue_quote f s rest

theorem endsNumber_punctuation {u : UInt16} (r : List UInt16) (mark : u = 0x2C ∨ u = 0x5D ∨ u = 0x7D) :
    Number.EndsNumber (u :: r) := by
  intro w member
  cases member
  rcases mark with rfl | rfl | rfl <;> decide

theorem Written.length_pos {v : Value} {t : Text} (written : Written v t) : 0 < t.length := by
  obtain ⟨u, r, units, -⟩ := written.opens
  simp [Text.length, units]

theorem commaJoin_cons_cons (t t' : Text) (more : List Text) :
    commaJoin (t :: t' :: more) = t ++ lit "," ++ commaJoin (t' :: more) := rfl

/-- The elements of an array after its opening bracket read back one after another, given fuel
beyond the length of the list. -/
theorem readItems_written {items : List Value} {parts : List Text} (written : List.Forall₂ Written items parts)
    (nonempty : parts ≠ []) (fuel : Nat) (acc : List Value) (rest : List UInt16)
    (enough : (commaJoin parts).length + 1 < fuel) :
    readItems fuel acc ((commaJoin parts).units ++ 0x5D :: rest) =
      some (.array (acc.reverse ++ Value.jsonImages items), rest) := by
  induction written generalizing fuel acc with
  | nil => exact absurd rfl nonempty
  | @cons v t items parts first others ih =>
    obtain ⟨f, rfl⟩ : ∃ f, fuel = f + 1 := ⟨fuel - 1, by omega⟩
    cases others with
    | nil =>
      have read := first.reads f (0x5D :: rest) (by simp [commaJoin] at enough; omega)
        (endsNumber_punctuation rest (by simp))
      simp only [commaJoin] at read ⊢
      rw [readItems, read]
      simp [skipBlank_cons rest (show isBlank 0x5D = false by decide), Value.jsonImages]
    | @cons w t' items' parts' second others' =>
      have long := first.length_pos
      rw [commaJoin_cons_cons] at enough ⊢
      simp only [Text.length_append, show (lit ",").length = 1 from rfl] at enough
      have read := first.reads f (0x2C :: ((commaJoin (t' :: parts')).units ++ 0x5D :: rest)) (by omega)
        (endsNumber_punctuation _ (by simp))
      have next := ih (by simp) f (v.jsonImage :: acc) (by omega)
      simp only [Text.append_units, List.append_assoc, show (lit ",").units = [0x2C] from rfl,
        List.cons_append, List.nil_append]
      rw [readItems, read]
      simp only [skipBlank_cons _ (show isBlank 0x2C = false by decide), next]
      simp [Value.jsonImages]

theorem commaJoin_front (t : Text) (more : List Text) :
    ∃ tail, (commaJoin (t :: more)).units = t.units ++ tail := by
  cases more with
  | nil => exact ⟨[], by simp [commaJoin]⟩
  | cons t' more => exact ⟨_, by rw [commaJoin_cons_cons, Text.append_units, Text.append_units, List.append_assoc]⟩

theorem oneLine_of_forall₂ {α : Type} {R : α → Text → Prop} (line : ∀ a t, R a t → OneLine t) {xs : List α}
    {parts : List Text} (each : List.Forall₂ R xs parts) : ∀ t ∈ parts, OneLine t := by
  induction each with
  | nil => simp
  | cons first _ ih =>
    intro t member
    rcases List.mem_cons.1 member with rfl | later
    · exact line _ _ first
    · exact ih t later

theorem written_array {items : List Value} {parts : List Text} (each : List.Forall₂ Written items parts) :
    Written (.array items) (lit "[" ++ commaJoin parts ++ lit "]") where
  oneLine :=
    ((oneLine_lit "[" (by simp [lit, Text.ofString, Text.unitsOfCodePoint])).append
      (oneLine_commaJoin (oneLine_of_forall₂ (fun _ _ written => written.oneLine) each))).append
      (oneLine_lit "]" (by simp [lit, Text.ofString, Text.unitsOfCodePoint]))
  opens := ⟨0x5B, _, rfl, by decide, by decide⟩
  reads fuel rest long _ := by
    simp only [Text.length_append, show (lit "[").length = 1 from rfl,
      show (lit "]").length = 1 from rfl] at long
    obtain ⟨f, rfl⟩ : ∃ f, fuel = f + 1 := ⟨fuel - 1, by omega⟩
    have units : (lit "[" ++ commaJoin parts ++ lit "]").units ++ rest =
        0x5B :: ((commaJoin parts).units ++ 0x5D :: rest) := by
      simp [Text.append_units, lit, Text.ofString, Text.unitsOfCodePoint]
    rw [units, readValue, skipBlank_cons _ (by decide)]
    cases each with
    | nil =>
      simp [commaJoin, Text.empty, skipBlank_cons rest (show isBlank 0x5D = false by decide), Value.jsonImage,
        Value.jsonImages]
    | @cons v t items' parts' first others =>
      obtain ⟨u, r, front, solid, notClose⟩ := first.opens
      obtain ⟨tail, joined⟩ := commaJoin_front t parts'
      have elements := readItems_written (.cons first others) (by simp) f [] rest (by omega)
      simp only [joined, front, List.cons_append, List.append_assoc] at elements ⊢
      rw [skipBlank_cons _ solid]
      split
      next r' same => exact absurd (List.cons.inj same).1 notClose
      next => simpa [Value.jsonImage] using elements

def MemberWritten (member : Text × Value) (part : Text) : Prop :=
  ∃ t, part = quote member.1 ++ lit ":" ++ t ∧ Written member.2 t

theorem member_units (k : Text) (t : Text) (rest : List UInt16) :
    (quote k ++ lit ":" ++ t).units ++ rest = 0x22 :: (escapeUnits k.units ++ 0x22 :: 0x3A :: (t.units ++ rest)) := by
  simp [quote, Text.append_units, lit, Text.ofString, Text.unitsOfCodePoint]

theorem commaJoin_units (t t' : Text) (more : List Text) (rest : List UInt16) :
    (commaJoin (t :: t' :: more)).units ++ rest = t.units ++ 0x2C :: ((commaJoin (t' :: more)).units ++ rest) := by
  simp [commaJoin_cons_cons, Text.append_units, lit, Text.ofString, Text.unitsOfCodePoint]

theorem length_commaJoin (t t' : Text) (more : List Text) :
    (commaJoin (t :: t' :: more)).length = t.length + 1 + (commaJoin (t' :: more)).length := by
  simp [commaJoin_cons_cons, Text.length_append]
  rfl

theorem readMembers_last (f : Nat) (acc : List (Text × Value)) (k t : Text) {v : Value} {rest : List UInt16}
    (read : readValue f (t.units ++ 0x7D :: rest) = some (v, 0x7D :: rest)) :
    readMembers (f + 1) acc ((quote k ++ lit ":" ++ t).units ++ 0x7D :: rest) =
      some (.object .plain (Props.set acc k v), rest) := by
  rw [member_units, readMembers, skipBlank_cons _ (by decide)]
  simp only [readString_escapeUnits, List.reverse_nil, List.nil_append,
    skipBlank_cons _ (show isBlank 0x3A = false by decide), read,
    skipBlank_cons _ (show isBlank 0x7D = false by decide)]

theorem readMembers_next (f : Nat) (acc : List (Text × Value)) (k t : Text) {v : Value} {r : List UInt16}
    (read : readValue f (t.units ++ 0x2C :: 0x22 :: r) = some (v, 0x2C :: 0x22 :: r)) :
    readMembers (f + 1) acc ((quote k ++ lit ":" ++ t).units ++ 0x2C :: 0x22 :: r) =
      readMembers f (Props.set acc k v) (0x22 :: r) := by
  rw [member_units, readMembers, skipBlank_cons _ (by decide)]
  simp only [readString_escapeUnits, List.reverse_nil, List.nil_append,
    skipBlank_cons _ (show isBlank 0x3A = false by decide), read,
    skipBlank_cons _ (show isBlank 0x2C = false by decide), skipBlank_cons _ (show isBlank 0x22 = false by decide)]

/-- The members of an object after its opening brace read back one after another, each defined in
turn on what was read before it. -/
theorem readMembers_written {props : List (Text × Value)} {parts : List Text}
    (written : List.Forall₂ MemberWritten props parts) (nonempty : parts ≠ []) (fuel : Nat)
    (acc : List (Text × Value)) (rest : List UInt16) (enough : (commaJoin parts).length + 1 < fuel) :
    readMembers fuel acc ((commaJoin parts).units ++ 0x7D :: rest) =
      some (.object .plain ((Value.jsonImageProps props).foldl (fun ps kv => Props.set ps kv.1 kv.2) acc), rest) := by
  induction written generalizing fuel acc with
  | nil => exact absurd rfl nonempty
  | @cons member part props parts first others ih =>
    obtain ⟨k, v⟩ := member
    obtain ⟨t, rfl, first⟩ := first
    dsimp only at first enough ⊢
    obtain ⟨f, rfl⟩ : ∃ f, fuel = f + 1 := ⟨fuel - 1, by omega⟩
    have partLength : t.length + 3 ≤ (quote k ++ lit ":" ++ t).length := by
      simp [Text.length, quote, Text.append_units, lit, Text.ofString, Text.unitsOfCodePoint]
    cases others with
    | nil =>
      simp only [commaJoin] at enough ⊢
      have read := first.reads f (0x7D :: rest) (by omega) (endsNumber_punctuation rest (by simp))
      exact readMembers_last f acc k t read
    | @cons member' part' props' parts' second others' =>
      obtain ⟨t', rfl, -⟩ := second
      rw [length_commaJoin] at enough
      rw [commaJoin_units]
      have next := ih (by simp) f (Props.set acc k v.jsonImage) (by omega)
      -- the next member opens with the quote of its key
      obtain ⟨r, quoteFirst⟩ : ∃ r, (commaJoin ((quote member'.1 ++ lit ":" ++ t') :: parts')).units ++
          0x7D :: rest = 0x22 :: r := by
        obtain ⟨tail, joined⟩ := commaJoin_front (quote member'.1 ++ lit ":" ++ t') parts'
        exact ⟨_, by rw [joined, List.append_assoc, member_units]⟩
      rw [quoteFirst] at next ⊢
      have read := first.reads f (0x2C :: 0x22 :: r) (by omega) (endsNumber_punctuation _ (.inl rfl))
      rw [readMembers_next f acc k t read]
      exact next

theorem written_object (shape : Shape) {props : List (Text × Value)} {parts : List Text}
    (each : List.Forall₂ MemberWritten props parts) :
    Written (.object shape props) (lit "\x7b" ++ commaJoin parts ++ lit "\x7d") where
  oneLine := by
    refine ((oneLine_lit "\x7b" (by simp [lit, Text.ofString, Text.unitsOfCodePoint])).append
      (oneLine_commaJoin (oneLine_of_forall₂ ?_ each))).append
      (oneLine_lit "\x7d" (by simp [lit, Text.ofString, Text.unitsOfCodePoint]))
    rintro ⟨k, v⟩ part ⟨t, rfl, written⟩
    exact ((oneLine_quote k).append (oneLine_lit ":" (by simp [lit, Text.ofString, Text.unitsOfCodePoint]))).append
      written.oneLine
  opens := ⟨0x7B, _, rfl, by decide, by decide⟩
  reads fuel rest long _ := by
    simp only [Text.length_append, show (lit "\x7b").length = 1 from rfl,
      show (lit "\x7d").length = 1 from rfl] at long
    obtain ⟨f, rfl⟩ : ∃ f, fuel = f + 1 := ⟨fuel - 1, by omega⟩
    have units : (lit "\x7b" ++ commaJoin parts ++ lit "\x7d").units ++ rest =
        0x7B :: ((commaJoin parts).units ++ 0x7D :: rest) := by
      simp [Text.append_units, lit, Text.ofString, Text.unitsOfCodePoint]
    rw [units, readValue, skipBlank_cons _ (by decide)]
    simp only
    cases each with
    | nil =>
      obtain ⟨g, rfl⟩ : ∃ g, f = g + 1 := ⟨f - 1, by simp [commaJoin, Text.empty, Text.length] at long; omega⟩
      simp [commaJoin, Text.empty, readMembers, skipBlank_cons rest (show isBlank 0x7D = false by decide),
        Value.jsonImage, Value.jsonImageProps, Props.ofList]
    | cons first others =>
      exact readMembers_written (.cons first others) (by simp) f [] rest (by omega)

theorem isWire_of_get {props : List (Text × Value)} (wire : Value.allWireProps props = true) {k : Text}
    {v : Value} (found : Props.get? props k = some v) : v.isWire = true := by
  induction props with
  | nil => simp [Props.get?] at found
  | cons member props ih =>
    obtain ⟨j, w⟩ := member
    simp only [Value.allWireProps, Bool.and_eq_true] at wire
    by_cases same : j = k
    · subst same
      simp [Props.get?] at found
      exact found ▸ wire.1
    · exact ih wire.2 (by simpa [Props.get?, same] using found)

mutual

/-- A wire value has JSON text, which reads back as its image. -/
theorem write_wire : (v : Value) → v.isWire = true → ∃ t, write v = .ok (some t) ∧ Written v t
  | .null, _ => ⟨_, rfl, written_null⟩
  | .bool b, _ => ⟨_, rfl, written_bool b⟩
  | .number x, wire => ⟨_, by simp [write, show x.isFinite = true from wire], written_number wire⟩
  | .string s, _ => ⟨_, rfl, written_string s⟩
  | .array items, wire => by
    obtain ⟨parts, texts, each⟩ := writeItems_wire items wire
    exact ⟨_, by simp [write, texts], written_array each⟩
  | .object shape props, wire => by
    have members : Value.allWireProps props = true := by
      cases shape <;> simp_all [Value.isWire]
    obtain ⟨parts, texts, each⟩ := writeMembers_wire props members
    refine ⟨_, ?_, written_object shape each⟩
    unfold write
    split
    next callable => exact absurd (isWire_of_get members callable) (by decide)
    next => simp [texts]
  | .undefined, wire | .bigint _, wire | .symbol _, wire | .function, wire | .date _, wire | .map _, wire
  | .bytes _, wire => by simp [Value.isWire] at wire

theorem writeItems_wire : (items : List Value) → Value.allWire items = true →
    ∃ parts, writeItems items = .ok parts ∧ List.Forall₂ Written items parts
  | [], _ => ⟨[], rfl, .nil⟩
  | v :: rest, wire => by
    simp only [Value.allWire, Bool.and_eq_true] at wire
    obtain ⟨t, text, first⟩ := write_wire v wire.1
    obtain ⟨ts, texts, others⟩ := writeItems_wire rest wire.2
    exact ⟨t :: ts, by simp [writeItems, text, texts]; rfl, .cons first others⟩

theorem writeMembers_wire : (props : List (Text × Value)) → Value.allWireProps props = true →
    ∃ parts, writeMembers props = .ok parts ∧ List.Forall₂ MemberWritten props parts
  | [], _ => ⟨[], rfl, .nil⟩
  | (k, v) :: rest, wire => by
    simp only [Value.allWireProps, Bool.and_eq_true] at wire
    obtain ⟨t, text, first⟩ := write_wire v wire.1
    obtain ⟨ts, texts, others⟩ := writeMembers_wire rest wire.2
    exact ⟨_ :: ts, by simp [writeMembers, text, texts]; rfl, .cons ⟨t, rfl, first⟩ others⟩

end

theorem parse_written {v : Value} {t : Text} (written : Written v t) : parse? t = some v.jsonImage := by
  have read := written.reads (t.length + 1) [] (by omega) endsNumber_nil
  rw [List.append_nil] at read
  simp [parse?, read, skipBlank]

end Json

namespace Props

theorem mem_insertNew {α : Type} {ps : List (Text × α)} {k : Text} {v : α} {kv : Text × α}
    (member : kv ∈ insertNew ps k v) : kv ∈ ps ∨ kv = (k, v) := by
  induction ps with
  | nil => simp_all [insertNew]
  | cons first rest ih =>
    unfold insertNew at member
    split at member
    · simp only [List.mem_cons] at member ⊢
      tauto
    · simp only [List.mem_cons] at member ⊢
      rcases member with here | later
      · exact .inl (.inl here)
      · rcases ih later with old | new
        · exact .inl (.inr old)
        · exact .inr new

theorem mem_set {α : Type} {ps : List (Text × α)} {k : Text} {v : α} {kv : Text × α}
    (member : kv ∈ set ps k v) : kv ∈ ps ∨ kv.2 = v := by
  unfold set at member
  split at member
  · obtain ⟨⟨j, w⟩, old, same⟩ := List.mem_map.1 member
    by_cases hit : (j == k) = true
    · simp only [hit, if_true] at same
      exact .inr (by rw [← same])
    · simp only [hit] at same
      exact .inl (same ▸ old)
  · rcases mem_insertNew member with old | new
    · exact .inl old
    · exact .inr (by rw [new])

theorem forall_mem_ofList {α : Type} (p : α → Prop) {kvs : List (Text × α)} (each : ∀ kv ∈ kvs, p kv.2) :
    ∀ kv ∈ ofList kvs, p kv.2 := by
  -- the properties defined so far hold values of the list, whichever were replaced
  suffices step : ∀ acc : List (Text × α), (∀ kv ∈ acc, p kv.2) →
      ∀ kv ∈ kvs.foldl (fun ps kv => set ps kv.1 kv.2) acc, p kv.2 from step [] (by simp)
  induction kvs with
  | nil => exact fun acc held => held
  | cons first rest ih =>
    intro acc held
    apply ih (fun kv member => each kv (.tail _ member))
    intro kv member
    rcases mem_set member with old | new
    · exact held kv old
    · exact new ▸ each first (.head _)

end Props

namespace Value

theorem allWireProps_iff {props : List (Text × Value)} :
    allWireProps props = true ↔ ∀ kv ∈ props, kv.2.isWire = true := by
  induction props with
  | nil => simp [allWireProps]
  | cons first rest ih =>
    obtain ⟨k, v⟩ := first
    simp [allWireProps, ih]

mutual

/-- The image of a wire value is a wire value. -/
theorem isWire_jsonImage : (v : Value) → v.isWire = true → v.jsonImage.isWire = true
  | .number x, wire => by
    simp only [jsonImage, isWire]
    split
    · rfl
    · exact wire
  | .array items, wire => allWire_jsonImages items wire
  | .object shape props, wire => by
    have members : allWireProps props = true := by
      cases shape <;> simp_all [isWire]
    simp only [jsonImage, isWire]
    exact allWireProps_iff.2 (Props.forall_mem_ofList (fun v : Value => v.isWire = true)
      (allWireProps_iff.1 (allWireProps_jsonImageProps props members)))
  | .null, _ | .bool _, _ | .string _, _ => rfl
  | .undefined, wire | .bigint _, wire | .symbol _, wire | .function, wire | .date _, wire | .map _, wire
  | .bytes _, wire => by simp [isWire] at wire

theorem allWire_jsonImages : (items : List Value) → allWire items = true → allWire (jsonImages items) = true
  | [], _ => rfl
  | v :: rest, wire => by
    simp only [allWire, jsonImages, Bool.and_eq_true] at wire ⊢
    exact ⟨isWire_jsonImage v wire.1, allWire_jsonImages rest wire.2⟩

theorem allWireProps_jsonImageProps : (props : List (Text × Value)) → allWireProps props = true →
    allWireProps (jsonImageProps props) = true
  | [], _ => rfl
  | (_, v) :: rest, wire => by
    simp only [allWireProps, jsonImageProps, Bool.and_eq_true] at wire ⊢
    exact ⟨isWire_jsonImage v wire.1, allWireProps_jsonImageProps rest wire.2⟩

end

end Value

end PeerMessaging
