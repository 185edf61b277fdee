import PeerMessaging.Cli.Command
import PeerMessaging.Proofs.WholeNumbers
import PeerMessaging.Proofs.FloatFields
import PeerMessaging.Proofs.ConfigResolution
/-!
The command line against the discovery settings. The command line makes eight checks of its
arguments (`ArgumentCheck`), each with the problem it reports, and reports the problems of the
failing ones in order before it exits; discovery checks the settings it is started with once
more. Main statement: for arguments that read and ask for neither help nor version, a run either
exits with status 1 reporting exactly the problems of the failing checks, in order, or, when no
check fails, starts with the numbers the options' texts denote, and the discovery settings it
builds from them resolve.

The reason is that the command line's own checks (a whole number not below a least value, and
a ceiling on the ports checked apart) imply the settings' checks (a whole port from 1 to 65535,
a finite positive interval, a finite timeout not below zero) for every number, so for whatever
text the conversion reads, blanks, hexadecimal, exponents and negative zero included.
-/

open Float.Model Float.Model.UnpackedFloat

namespace PeerMessaging

namespace Number

/-! ### The order of binary64 numbers -/

theorem compare_swap (a b : UnpackedFloat) : b.compare a = (a.compare b).map Ordering.swap := by
  -- signs settle every pair but two finite numbers of one sign, which compare by exponent and
  -- then by significand, and swapping goes through that order; two infinities compare their
  -- signs, which are left to `decide`
  rcases a with (_ | _) | _ | (_ | _) | ⟨_ | _, m, e, pos⟩ <;>
    rcases b with (_ | _) | _ | (_ | _) | ⟨_ | _, m', e', pos'⟩ <;>
    simp [UnpackedFloat.compare, Ordering.swap_then, Nat.compare_swap, Int.compare_swap] <;> decide

theorem compare_isSome {a b : UnpackedFloat} (ha : a.isNaN = false) (hb : b.isNaN = false) :
    (a.compare b).isSome := by
  rcases a with (_ | _) | _ | (_ | _) | ⟨_ | _, m, e, pos⟩ <;>
    rcases b with (_ | _) | _ | (_ | _) | ⟨_ | _, m', e', pos'⟩ <;>
    simp_all [UnpackedFloat.compare, UnpackedFloat.isNaN]

theorem le_of_not_lt_of_not_nan {x y : Float} (hx : x.isNaN = false) (hy : y.isNaN = false)
    (h : ¬ y < x) : x ≤ y := by
  obtain ⟨o, answer⟩ := Option.isSome_iff_exists.1 (compare_isSome (a := x.toModel.unpack)
    (b := y.toModel.unpack) hx hy)
  rw [lt_iff_unpack] at h
  rw [le_iff_unpack]
  simp only [UnpackedFloat.lt, UnpackedFloat.le, compare_swap x.toModel.unpack, answer] at h ⊢
  cases o <;> simp_all

theorem pos_of_one_le {x : Float} (h : (1 : Float) ≤ x) : (0 : Float) < x := by
  rw [le_iff_unpack,
    show (1 : Float).toModel.unpack = wholeForm 1 from unpack_toFloat (by norm_num)] at h
  rw [lt_iff_unpack, show (0 : Float).toModel.unpack = .zero .positive from rfl]
  -- one is positive and finite, so only positive finite numbers and plus infinity reach it
  generalize x.toModel.unpack = u at h ⊢
  rcases u with (_ | _) | _ | (_ | _) | ⟨_ | _, m, e, pos⟩ <;>
    simp_all [UnpackedFloat.le, UnpackedFloat.lt, UnpackedFloat.compare, wholeForm]

theorem isFinite_of_isInteger {x : Float} (whole : isInteger x = true) : x.isFinite = true := by
  simp only [isInteger, Bool.and_eq_true] at whole
  exact whole.1

end Number

namespace Cli

open DiscoveryConfig

/-! ### Numbers the command line takes -/

/-- A number the command line takes for an option whose least value is `least`: a whole number,
finite, not below it. -/
def Accepts (least : Nat) (x : Float) : Prop := Number.isInteger x = true ∧ least.toFloat ≤ x

instance (least : Nat) (x : Float) : Decidable (Accepts least x) :=
  inferInstanceAs (Decidable (_ ∧ _))

def integerProblem (label : String) (t : Text) (least : Nat) : Option Text :=
  if Accepts least (Number.ofText t) then none
  else some (lit ("Invalid " ++ label ++ ": ") ++ t ++
    lit (". Must be an integer of at least " ++ toString least ++ "."))

@[simp] theorem readInteger_fst (label : String) (t : Text) (least : Nat) :
    (readInteger label t least).1 = Number.ofText t := by
  unfold readInteger
  dsimp only
  split <;> rfl

theorem readInteger_snd (label : String) (t : Text) (least : Nat) :
    (readInteger label t least).2 = (integerProblem label t least).toList := by
  unfold readInteger integerProblem Accepts
  by_cases taken :
      Number.isInteger (Number.ofText t) = true ∧ least.toFloat ≤ Number.ofText t <;>
    simp [taken]

theorem integerProblem_eq_none {label : String} {t : Text} {least : Nat} :
    integerProblem label t least = none ↔ Accepts least (Number.ofText t) := by
  unfold integerProblem
  split <;> simp_all

theorem isPort_of_accepts {x : Float} (whole : Accepts 1 x) (notAbove : ¬ (65535 : Float) < x) :
    Check.IsPort (.number x) := by
  have finite := (Number.not_nan_of_isFinite x (Number.isFinite_of_isInteger whole.1)).1
  exact ⟨x, rfl, whole.1, whole.2, Number.le_of_not_lt_of_not_nan finite (by decide) notAbove⟩

theorem isPositive_of_accepts {x : Float} (whole : Accepts 1 x) : Check.IsPositive (.number x) :=
  ⟨x, rfl, Number.isFinite_of_isInteger whole.1, Number.pos_of_one_le whole.2⟩

theorem isDuration_of_accepts {x : Float} (whole : Accepts 0 x) : Check.IsDuration (.number x) :=
  ⟨x, rfl, Number.isFinite_of_isInteger whole.1, whole.2⟩

-- Text is read as the host reads numbers: blanks, hexadecimal, exponents and negative zero pass
example : Accepts 1 (Number.ofText (lit " 7 ")) ∧ Accepts 1 (Number.ofText (lit "0x10")) ∧
    Accepts 1 (Number.ofText (lit "1e3")) ∧ Accepts 0 (Number.ofText (lit "-0")) := by
  decide +kernel

-- the empty text is zero, and an overflow to infinity or a fraction is no whole number
example : ¬ Accepts 1 (Number.ofText (lit "")) ∧ ¬ Accepts 1 (Number.ofText (lit "1e400")) ∧
    ¬ Accepts 1 (Number.ofText (lit "1.5")) ∧ (65535 : Float) < Number.ofText (lit "65536") := by
  decide +kernel

/-! ### The checks in order -/

/-- The checks the command line makes of parsed arguments, in the order it reports them. -/
inductive ArgumentCheck where
  | command | extraArguments | udpPort | tcpPort | portRange | interval | timeout | transport
  deriving DecidableEq

namespace ArgumentCheck

def order : List ArgumentCheck :=
  [command, extraArguments, udpPort, tcpPort, portRange, interval, timeout, transport]

theorem mem_order (k : ArgumentCheck) : k ∈ order := by
  cases k <;> simp [order]

/-- The problem a check finds, if it fails: a command that is missing or neither `discover` nor
`loopback`; positional arguments after it; a port or interval that is not a whole number from
one; a port above 65535, checked apart; a timeout, when given, that is not a whole number from
zero; a transport other than `json` and `byte`. -/
def problem (p : Parsed) : ArgumentCheck → Option Text
  | command =>
    match p.positionals.head? with
    | none => some (lit "Missing command")
    | some c =>
      if c = lit "discover" ∨ c = lit "loopback" then none
      else some (lit "Unknown command: " ++ c)
  | extraArguments =>
    if p.positionals.length ≤ 1 then none
    else some (lit "Unexpected arguments: " ++ Text.joinWith (lit " ") p.positionals.tail)
  | udpPort => integerProblem "UDP port" (p.optionText "udp-port") 1
  | tcpPort => integerProblem "TCP port" (p.optionText "tcp-port") 1
  | portRange =>
    if (65535 : Float) < Number.ofText (p.optionText "udp-port") ∨
        (65535 : Float) < Number.ofText (p.optionText "tcp-port") then
      some (lit "Ports must be between 1 and 65535.")
    else none
  | interval => integerProblem "interval" (p.optionText "interval") 1
  | timeout => (p.text? "timeout").bind fun t => integerProblem "timeout" t 0
  | transport =>
    if p.optionText "transport" = lit "json" ∨ p.optionText "transport" = lit "byte" then none
    else some (lit "Invalid transport: " ++ p.optionText "transport" ++
      lit ". Must be 'json' or 'byte'.")

end ArgumentCheck

def problems (p : Parsed) : List Text := ArgumentCheck.order.filterMap (ArgumentCheck.problem p)

theorem problems_eq_nil_iff (p : Parsed) :
    problems p = [] ↔ ∀ k : ArgumentCheck, k.problem p = none := by
  unfold problems
  rw [List.filterMap_eq_nil_iff]
  exact ⟨fun clean k => clean k (ArgumentCheck.mem_order k), fun clean k _ => clean k⟩

theorem problems_in_order (p : Parsed) :
    (ArgumentCheck.command.problem p).toList ++ (ArgumentCheck.extraArguments.problem p).toList ++
      (ArgumentCheck.udpPort.problem p).toList ++ (ArgumentCheck.tcpPort.problem p).toList ++
      (ArgumentCheck.portRange.problem p).toList ++ (ArgumentCheck.interval.problem p).toList ++
      (ArgumentCheck.timeout.problem p).toList ++ (ArgumentCheck.transport.problem p).toList =
      problems p := by
  rw [problems, List.filterMap_eq_flatMap_toList]
  simp only [ArgumentCheck.order, List.flatMap_cons, List.flatMap_nil, List.append_nil,
    List.append_assoc]

/-- Arguments without problems have numbers the command line takes: whole ports from one and not
above 65535, a whole interval from one, and a whole timeout from zero when one is given. -/
theorem numbers_of_no_problem {p : Parsed} (clean : problems p = []) :
    Accepts 1 (Number.ofText (p.optionText "udp-port")) ∧
      Accepts 1 (Number.ofText (p.optionText "tcp-port")) ∧
      ¬ (65535 : Float) < Number.ofText (p.optionText "udp-port") ∧
      ¬ (65535 : Float) < Number.ofText (p.optionText "tcp-port") ∧
      Accepts 1 (Number.ofText (p.optionText "interval")) ∧
      ∀ t, p.text? "timeout" = some t → Accepts 0 (Number.ofText t) := by
  have passes := (problems_eq_nil_iff p).1 clean
  have inRange := passes .portRange
  simp only [ArgumentCheck.problem, ite_eq_right_iff, reduceCtorEq, imp_false, not_or] at inRange
  refine ⟨integerProblem_eq_none.1 (passes .udpPort), integerProblem_eq_none.1 (passes .tcpPort),
    inRange.1, inRange.2, integerProblem_eq_none.1 (passes .interval), fun t given => ?_⟩
  have timely := passes .timeout
  simp only [ArgumentCheck.problem, given, Option.bind_some] at timely
  exact integerProblem_eq_none.1 timely

/-! ### Each check as validation makes it -/

theorem readCommand_snd (p : Parsed) :
    (readCommand p.positionals).2 = (ArgumentCheck.problem p .command).toList := by
  unfold readCommand ArgumentCheck.problem
  cases p.positionals.head?
  case none => rfl
  case some c =>
    -- the names are tried in turn; given as facts, the two tests do not rewrite `c` away
    by_cases discover : c = lit "discover"
    · simp [discover]
    · by_cases loopback : c = lit "loopback"
      · simp [eq_false discover, eq_true loopback]
      · simp [discover, loopback]

theorem readCommand_fst {ps : List Text} (clean : (readCommand ps).2 = []) :
    ∃ c, (readCommand ps).1 = some c := by
  unfold readCommand at clean ⊢
  split at clean
  case h_1 => simp at clean
  case h_2 c _ =>
    by_cases discover : c = lit "discover"
    · simp [discover]
    · by_cases loopback : c = lit "loopback"
      · simp [eq_false discover, eq_true loopback]
      · simp [discover, loopback] at clean

theorem extraProblems_eq (p : Parsed) :
    extraProblems p.positionals = (ArgumentCheck.problem p .extraArguments).toList := by
  unfold extraProblems ArgumentCheck.problem
  by_cases single : p.positionals.length ≤ 1
  · simp [single, List.drop_eq_nil_of_le single]
  · have rest : p.positionals.tail ≠ [] :=
      List.ne_nil_of_length_pos (by rw [List.length_tail]; omega)
    simp [single, rest]

theorem rangeProblems_eq (p : Parsed) :
    rangeProblems (Number.ofText (p.optionText "udp-port"))
        (Number.ofText (p.optionText "tcp-port")) =
      (ArgumentCheck.problem p .portRange).toList := by
  unfold rangeProblems ArgumentCheck.problem
  by_cases above : (65535 : Float) < Number.ofText (p.optionText "udp-port") ∨
      (65535 : Float) < Number.ofText (p.optionText "tcp-port") <;> simp [above]

theorem readTimeout_snd (p : Parsed) :
    (readTimeout (p.text? "timeout")).2 = (ArgumentCheck.problem p .timeout).toList := by
  unfold ArgumentCheck.problem
  cases p.text? "timeout"
  case none => rfl
  case some t => simp [readTimeout, readInteger_snd]

theorem readTimeout_fst (t? : Option Text) :
    (readTimeout t?).1 = t?.map Number.ofText := by
  cases t? <;> simp [readTimeout]

theorem readTransport_snd (p : Parsed) :
    (readTransport (p.optionText "transport")).2 = (ArgumentCheck.problem p .transport).toList := by
  unfold readTransport ArgumentCheck.problem
  by_cases json : p.optionText "transport" = lit "json" <;>
    by_cases byte : p.optionText "transport" = lit "byte" <;> simp_all

theorem readTransport_fst {t : Text} (clean : (readTransport t).2 = []) :
    ∃ e, (readTransport t).1 = some e := by
  unfold readTransport at clean ⊢
  by_cases json : t == lit "json" <;> by_cases byte : t == lit "byte" <;> simp_all

/-! ### Validation -/

theorem validate_fst (p : Parsed) : (validate p).1 = problems p := by
  unfold validate
  -- each check's noted problems, in the order of the checks, are what the checks report
  simp only [readCommand_snd, extraProblems_eq, readInteger_snd, readInteger_fst, rangeProblems_eq,
    readTimeout_snd, readTransport_snd]
  split
  case h_1 noted => exact noted.symm.trans (problems_in_order p)
  case h_2 => exact problems_in_order p

/-- Validation refuses arguments that have a problem, and otherwise gives the invocation of the
numbers the options' texts denote. -/
theorem validate_cases (p : Parsed) :
    (problems p ≠ [] ∧ (validate p).2 = none) ∨
    (problems p = [] ∧ ∃ inv : Invocation, (validate p).2 = some inv ∧
      inv.udpPort = Number.ofText (p.optionText "udp-port") ∧
      inv.tcpPort = Number.ofText (p.optionText "tcp-port") ∧
      inv.intervalMs = Number.ofText (p.optionText "interval") ∧
      inv.timeoutMs = (p.text? "timeout").map Number.ofText ∧
      inv.allowLoopback = p.flag "allow-loopback") := by
  unfold validate
  simp only [readCommand_snd, extraProblems_eq, readInteger_snd, readInteger_fst, rangeProblems_eq,
    readTimeout_snd, readTransport_snd]
  split
  case h_1 c e _ _ noted =>
    -- no problem noted, and both the command and the transport named
    exact .inr ⟨(problems_in_order p).symm.trans noted, _, rfl, rfl, rfl, rfl, readTimeout_fst _,
      rfl⟩
  case h_2 named =>
    refine .inl ⟨fun clean => ?_, rfl⟩
    -- with no problem noted, the command and the transport are named, which this case excludes
    have noted := (problems_in_order p).trans clean
    have parts := noted
    simp only [List.append_eq_nil_iff] at parts
    obtain ⟨⟨⟨⟨⟨⟨⟨commandClean, -⟩, -⟩, -⟩, -⟩, -⟩, -⟩, transportClean⟩ := parts
    obtain ⟨c, command⟩ := readCommand_fst ((readCommand_snd p).trans commandClean)
    obtain ⟨e, transport⟩ := readTransport_fst ((readTransport_snd p).trans transportClean)
    exact named c e command transport noted

/-! ### The run -/

section Run

variable {args : List Text} {p : Parsed} (parsed : parse options args = .ok p)
  (noHelp : p.flag "help" = false) (noVersion : p.flag "version" = false)
include parsed noHelp noVersion

theorem run_of_invocation {inv : Invocation} (valid : (validate p).2 = some inv) :
    run args = .start inv := by
  have validated : validate p = ((validate p).1, some inv) := Prod.ext rfl valid
  simp only [run, parsed, noHelp, noVersion, Bool.false_eq_true, if_false]
  rw [validated]

theorem run_of_refused (refused : (validate p).2 = none) :
    run args = .exit 1 Text.empty (problemReport (validate p).1) := by
  have validated : validate p = ((validate p).1, none) := Prod.ext rfl refused
  simp only [run, parsed, noHelp, noVersion, Bool.false_eq_true, if_false]
  rw [validated]

end Run

/-! ### The discovery settings of a valid invocation -/

/-- The discovery settings of an invocation whose numbers the command line took pass every check
of the settings: its ports, interval and timeout by what the command line checked, the others
by their defaults. -/
theorem discoveryConfig_passes {inv : Invocation} (udp : Accepts 1 inv.udpPort)
    (tcp : Accepts 1 inv.tcpPort) (udpBelow : ¬ (65535 : Float) < inv.udpPort)
    (tcpBelow : ¬ (65535 : Float) < inv.tcpPort) (interval : Accepts 1 inv.intervalMs)
    (timeout : ∀ x, inv.timeoutMs = some x → Accepts 0 x) (k : Check) :
    k.Passes (k.field inv.discoveryConfig.withDefaults) := by
  cases k
  case udpPort => exact isPort_of_accepts udp udpBelow
  case tcpPort => exact isPort_of_accepts tcp tcpBelow
  case broadcastIntervalMs => exact isPositive_of_accepts interval
  case timeoutMs =>
    -- a timeout left out is zero
    show Check.IsDuration (.number (inv.timeoutMs.getD 0))
    cases noted : inv.timeoutMs
    case none => exact ⟨0, rfl, by decide, by decide⟩
    case some x => exact isDuration_of_accepts (timeout x noted)
  all_goals exact defaults_pass _

/-! ### Main statement -/

/-- Arguments that read and ask for neither help nor version either end the run with status 1,
reporting exactly the problems of the failing checks in order, or, with no check failing, start
the invocation of the numbers the options' texts denote, whose discovery settings resolve. -/
theorem arguments_refused_or_discovery_resolves (args : List Text) (p : Parsed)
    (parsed : parse options args = .ok p) (noHelp : p.flag "help" = false)
    (noVersion : p.flag "version" = false) :
    (problems p ≠ [] ∧ run args = .exit 1 Text.empty (problemReport (problems p))) ∨
    (problems p = [] ∧ ∃ inv : Invocation, run args = .start inv ∧
      inv.udpPort = Number.ofText (p.optionText "udp-port") ∧
      inv.tcpPort = Number.ofText (p.optionText "tcp-port") ∧
      inv.intervalMs = Number.ofText (p.optionText "interval") ∧
      inv.timeoutMs = (p.text? "timeout").map Number.ofText ∧
      inv.allowLoopback = p.flag "allow-loopback" ∧
      inv.discoveryConfig.resolve = .ok inv.discoveryConfig.withDefaults) := by
  rcases validate_cases p with
    ⟨noted, refused⟩ | ⟨clean, inv, valid, udp, tcp, interval, timeout, loopback⟩
  case inl =>
    rw [run_of_refused parsed noHelp noVersion refused, validate_fst]
    exact .inl ⟨noted, rfl⟩
  case inr =>
    -- no check fails, so the invocation's numbers are ones the command line takes
    obtain ⟨udpTaken, tcpTaken, udpBelow, tcpBelow, intervalTaken, timeoutTaken⟩ :=
      numbers_of_no_problem clean
    rw [← udp] at udpTaken udpBelow
    rw [← tcp] at tcpTaken tcpBelow
    rw [← interval] at intervalTaken
    have timeoutGiven : ∀ x, inv.timeoutMs = some x → Accepts 0 x := by
      intro x given
      rw [timeout, Option.map_eq_some_iff] at given
      obtain ⟨t, text, rfl⟩ := given
      exact timeoutTaken t text
    have settings := discoveryConfig_passes udpTaken tcpTaken udpBelow tcpBelow intervalTaken
      timeoutGiven
    refine .inr ⟨clean, inv, run_of_invocation parsed noHelp noVersion valid, udp, tcp, interval,
      timeout, loopback, ?_⟩
    rw [resolve_eq_forM, (forM_run_eq_ok_iff _).mpr settings]
    rfl

/-- Blanks around a port, a hexadecimal port, an interval with an exponent and a timeout of
negative zero read, and the run goes as the main statement says. -/
theorem unusual_numbers_read :
    ∃ p : Parsed, parse options [lit "discover", lit "--udp-port", lit " 7 ", lit "--tcp-port",
        lit "0x10", lit "--interval", lit "1e3", lit "--timeout=-0"] = .ok p ∧
      p.flag "help" = false ∧ p.flag "version" = false ∧
      ((problems p ≠ [] ∧ run [lit "discover", lit "--udp-port", lit " 7 ", lit "--tcp-port",
          lit "0x10", lit "--interval", lit "1e3", lit "--timeout=-0"] =
          .exit 1 Text.empty (problemReport (problems p))) ∨
        (problems p = [] ∧ ∃ inv : Invocation, run [lit "discover", lit "--udp-port", lit " 7 ",
            lit "--tcp-port", lit "0x10", lit "--interval", lit "1e3", lit "--timeout=-0"] =
            .start inv ∧
          inv.udpPort = Number.ofText (p.optionText "udp-port") ∧
          inv.tcpPort = Number.ofText (p.optionText "tcp-port") ∧
          inv.intervalMs = Number.ofText (p.optionText "interval") ∧
          inv.timeoutMs = (p.text? "timeout").map Number.ofText ∧
          inv.allowLoopback = p.flag "allow-loopback" ∧
          inv.discoveryConfig.resolve = .ok inv.discoveryConfig.withDefaults)) := by
  have parsed : parse options [lit "discover", lit "--udp-port", lit " 7 ", lit "--tcp-port",
      lit "0x10", lit "--interval", lit "1e3", lit "--timeout=-0"] =
      .ok ⟨[(lit "timeout", .text (lit "-0")), (lit "interval", .text (lit "1e3")),
        (lit "tcp-port", .text (lit "0x10")), (lit "udp-port", .text (lit " 7 ")),
        (lit "transport", .text (lit "json"))], [lit "discover"]⟩ := by rfl
  exact ⟨_, parsed, rfl, rfl, arguments_refused_or_discovery_resolves _ _ parsed rfl rfl⟩

end Cli

end PeerMessaging
