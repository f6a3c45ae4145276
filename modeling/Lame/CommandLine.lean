/-
  Lame/CommandLine.lean
  =====================
  **The option loop of the robot's `main`.**

  The loop is embedded with the index `i`, the strings of `argv` and the null pointer
  behind them.  Its specification is a left-to-right reading of the arguments: an option
  name takes the argument behind it, and the last value of an option counts.

  `optionLoop_complete` runs the loop over arguments that are read without a rest.  The
  test in front of a value lets the index of the null pointer pass, so that the loop
  meets the specification exactly when no option name is left over at the end.
-/
import Mathlib.Data.List.Induction

namespace Lame.CommandLine

/-! ## 1. The C library -/

/-- A string of C: its bytes in front of the terminating null. -/
structure CString where
  bytes : List UInt8
  noNull : 0 ∉ bytes
deriving DecidableEq

/-- `strcmp` of the bytes, with the null behind each of them. -/
def compareBytes : List UInt8 → List UInt8 → Int
  | [], [] => 0
  | [], byte :: _ => -byte.toNat
  | byte :: _, [] => byte.toNat
  | first :: firsts, second :: seconds =>
      if first = second then compareBytes firsts seconds
      else (first.toNat : Int) - second.toNat

def strcmp (first second : CString) : Int := compareBytes first.bytes second.bytes

theorem compareBytes_eq_zero_iff {first second : List UInt8} (hfirst : 0 ∉ first)
    (hsecond : 0 ∉ second) : compareBytes first second = 0 ↔ first = second := by
  -- a byte that is not null differs from the end of the other string
  have hpositive : ∀ (byte : UInt8) (bytes : List UInt8), 0 ∉ byte :: bytes → byte.toNat ≠ 0 := by
    intro byte bytes hbytes hzero
    exact hbytes (List.mem_cons.mpr (.inl (UInt8.toNat_inj.mp hzero).symm))
  induction first, second using compareBytes.induct with
  | case1 => simp [compareBytes]
  | case2 byte bytes =>
      have hbyte := hpositive byte bytes hsecond
      simp only [compareBytes, reduceCtorEq, iff_false]
      omega
  | case3 byte bytes =>
      have hbyte := hpositive byte bytes hfirst
      simp only [compareBytes, reduceCtorEq, iff_false]
      omega
  | case4 firsts byte seconds ih =>
      rw [compareBytes, if_pos rfl, List.cons.injEq]
      simpa using ih (fun h => hfirst (List.mem_cons_of_mem _ h))
        (fun h => hsecond (List.mem_cons_of_mem _ h))
  | case5 first firsts second seconds hdifferent =>
      rw [compareBytes, if_neg hdifferent, List.cons.injEq]
      constructor
      · intro hzero
        exact absurd (UInt8.toNat_inj.mp (by omega)) hdifferent
      · rintro ⟨hsame, -⟩
        exact absurd hsame hdifferent

theorem strcmp_eq_zero_iff (first second : CString) : strcmp first second = 0 ↔ first = second := by
  rw [strcmp, compareBytes_eq_zero_iff first.noNull second.noNull, CString.mk.injEq]

def isspace (byte : UInt8) : Bool := byte = 0x20 || (0x09 ≤ byte && byte ≤ 0x0D)

def isdigit (byte : UInt8) : Bool := 0x30 ≤ byte && byte ≤ 0x39

/-- The value of the decimal digits in front. -/
def leadingDigits (bytes : List UInt8) : Nat :=
  (bytes.takeWhile isdigit).foldl (fun value byte => 10 * value + (byte.toNat - 0x30)) 0

def LONG_MIN : Int := -9223372036854775808

def LONG_MAX : Int := 9223372036854775807

/-- `strtol` to base 10, with a `long` of 64 bits. -/
def strtol (text : CString) : Int :=
  let value : Int :=
    match text.bytes.dropWhile isspace with
    | 0x2D :: rest => -leadingDigits rest
    | 0x2B :: rest => leadingDigits rest
    | rest => leadingDigits rest
  max LONG_MIN (min value LONG_MAX)

/-- `atoi` is `strtol` converted to `int`. -/
def atoi (text : CString) : Int32 := Int32.ofInt (strtol text)

/-! ## 2. The loop -/

/-- The variables of `main` that the options set. -/
structure Options where
  serial_port : List UInt8
  port : Int32
  ai_remote_port : Int32
deriving DecidableEq

def Options.default : Options where
  serial_port := []
  port := 10000
  ai_remote_port := 11000

/-- `"-p"` -/
def textP : CString := ⟨['-'.toUInt8, 'p'.toUInt8], by decide⟩

/-- `"-s"` -/
def textS : CString := ⟨['-'.toUInt8, 's'.toUInt8], by decide⟩

/-- `"-ai"` -/
def textAi : CString := ⟨['-'.toUInt8, 'a'.toUInt8, 'i'.toUInt8], by decide⟩

inductive Fault where
  /-- The null pointer at `argv[argc]` is used as a string. -/
  | nullString
deriving DecidableEq, Repr

/-- How an iteration ends. -/
inductive Control where
  | broke (options : Options)
  /-- `i` went up by `extra` in the body. -/
  | continued (extra : Nat) (options : Options)
deriving DecidableEq

/-- The indices of `argv` that are used as strings, and the end of an iteration. -/
structure Pass where
  used : List Nat
  control : Except Fault Control

/-- The branch of an option, the same three times: the test, the value, `i++`. -/
def takeValue (args : List CString) (i : Nat) (options : Options)
    (assign : CString → Options) : Pass :=
  if i + 1 > args.length then ⟨[i], .ok (.broke options)⟩
  else match args[i + 1]? with
    | none => ⟨[i, i + 1], .error .nullString⟩
    | some value => ⟨[i, i + 1], .ok (.continued 1 (assign value))⟩

/-- The body of the loop, at `argv[i] = arg`. -/
def body (args : List CString) (i : Nat) (arg : CString) (options : Options) : Pass :=
  if strcmp textP arg = 0 then
    takeValue args i options fun value => { options with port := atoi value }
  else if strcmp textS arg = 0 then
    takeValue args i options fun value => { options with serial_port := value.bytes }
  else if strcmp textAi arg = 0 then
    takeValue args i options fun value => { options with ai_remote_port := atoi value }
  else ⟨[i], .ok (.continued 0 options)⟩

/-- All indices of `argv` that the loop uses as strings, and what it ends with. -/
structure Outcome where
  used : List Nat
  result : Except Fault Options

/-- The loop from index `i` on. -/
def optionLoop (args : List CString) (i : Nat) (options : Options) : Outcome :=
  if h : i < args.length then
    match body args i args[i] options with
    | ⟨used, .error fault⟩ => ⟨used, .error fault⟩
    | ⟨used, .ok (.broke options)⟩ => ⟨used, .ok options⟩
    | ⟨used, .ok (.continued extra options)⟩ =>
        let rest := optionLoop args (i + extra + 1) options
        ⟨used ++ rest.used, rest.result⟩
  else ⟨[], .ok options⟩
termination_by args.length - i

/-- What `main` does with its arguments. -/
def parseArguments (args : List CString) : Outcome := optionLoop args 1 .default

/-! ## 3. The specification -/

inductive OptionName where
  | p
  | s
  | ai
deriving DecidableEq, Repr

def optionName (arg : CString) : Option OptionName :=
  if arg = textP then some .p
  else if arg = textS then some .s
  else if arg = textAi then some .ai
  else none

/-- The options and their values, from left to right. -/
def assignments : List CString → List (OptionName × CString)
  | name :: value :: rest =>
      match optionName name with
      | some option => (option, value) :: assignments rest
      | none => assignments (value :: rest)
  | [_] | [] => []

/-- The last value of an option. -/
def lastValue (option : OptionName) (pairs : List (OptionName × CString)) : Option CString :=
  (pairs.filter fun pair => pair.1 = option).getLast?.map Prod.snd

/-- What the arguments ask for. -/
def requested (args : List CString) : Options where
  serial_port := (lastValue .s (assignments args)).elim Options.default.serial_port CString.bytes
  port := (lastValue .p (assignments args)).elim Options.default.port atoi
  ai_remote_port := (lastValue .ai (assignments args)).elim Options.default.ai_remote_port atoi

/-- Arguments in which every option name that is not a value has one. -/
inductive Complete : List CString → Prop where
  | nil : Complete []
  | other {arg : CString} {rest : List CString} (harg : optionName arg = none)
      (hrest : Complete rest) : Complete (arg :: rest)
  | option {name value : CString} {rest : List CString} {option : OptionName}
      (hname : optionName name = some option) (hrest : Complete rest) :
      Complete (name :: value :: rest)

/-- The strings used are arguments of the program, and the options are those requested. -/
def MeetsScan (args : List CString) : Prop :=
  (∀ k ∈ (parseArguments args).used, 1 ≤ k ∧ k < args.length) ∧
    (parseArguments args).result = .ok (requested args.tail)

/-! ## 4. The requested options -/

theorem assignments_other {arg : CString} (h : optionName arg = none) (rest : List CString) :
    assignments (arg :: rest) = assignments rest := by
  cases rest with
  | nil => rfl
  | cons value rest => rw [assignments, h]

theorem assignments_option {name value : CString} {option : OptionName}
    (h : optionName name = some option) (rest : List CString) :
    assignments (name :: value :: rest) = (option, value) :: assignments rest := by
  rw [assignments, h]

def Options.assign (options : Options) (pair : OptionName × CString) : Options :=
  match pair.1 with
  | .p => { options with port := atoi pair.2 }
  | .s => { options with serial_port := pair.2.bytes }
  | .ai => { options with ai_remote_port := atoi pair.2 }

/-- A variable that one option sets ends with the last value of the option. -/
theorem foldl_assign {α : Type} (field : Options → α) (option : OptionName) (read : CString → α)
    (hassign : ∀ options pair, field (options.assign pair) =
      if pair.1 = option then read pair.2 else field options)
    (pairs : List (OptionName × CString)) (options : Options) :
    field (pairs.foldl Options.assign options) =
      (lastValue option pairs).elim (field options) read := by
  induction pairs using List.reverseRecOn with
  | nil => rfl
  | append_singleton pairs pair ih =>
      rw [List.foldl_append, List.foldl_cons, List.foldl_nil, hassign]
      by_cases hoption : pair.1 = option
      · rw [if_pos hoption, lastValue, List.filter_append]
        simp [hoption]
      · rw [if_neg hoption, ih, lastValue, lastValue, List.filter_append]
        simp [hoption]

theorem requested_eq (args : List CString) :
    requested args = (assignments args).foldl Options.assign .default := by
  have hserial := foldl_assign Options.serial_port .s CString.bytes
    (by rintro options ⟨_ | _ | _, value⟩ <;> rfl) (assignments args) .default
  have hport := foldl_assign Options.port .p atoi
    (by rintro options ⟨_ | _ | _, value⟩ <;> rfl) (assignments args) .default
  have hai := foldl_assign Options.ai_remote_port .ai atoi
    (by rintro options ⟨_ | _ | _, value⟩ <;> rfl) (assignments args) .default
  rw [requested, ← hserial, ← hport, ← hai]

/-! ## 5. The loop over complete arguments -/

/-- The comparisons of the body find the option that the argument names. -/
theorem body_eq (args : List CString) (i : Nat) (arg : CString) (options : Options) :
    body args i arg options =
      match optionName arg with
      | some option => takeValue args i options fun value => options.assign (option, value)
      | none => ⟨[i], .ok (.continued 0 options)⟩ := by
  rw [body, optionName]
  simp only [strcmp_eq_zero_iff, @eq_comm _ _ arg]
  by_cases hp : arg = textP
  · rw [if_pos hp, if_pos hp]
    rfl
  · rw [if_neg hp, if_neg hp]
    by_cases hs : arg = textS
    · rw [if_pos hs, if_pos hs]
      rfl
    · rw [if_neg hs, if_neg hs]
      by_cases hai : arg = textAi
      · rw [if_pos hai, if_pos hai]
        rfl
      · rw [if_neg hai, if_neg hai]

theorem optionLoop_end {args : List CString} {i : Nat} (h : args.length ≤ i) (options : Options) :
    optionLoop args i options = ⟨[], .ok options⟩ := by
  rw [optionLoop, dif_neg (Nat.not_lt.mpr h)]

section Iterations

variable {before : List CString} (options : Options)

theorem optionLoop_other {arg : CString} (h : optionName arg = none) (rest : List CString) :
    optionLoop (before ++ arg :: rest) before.length options =
      ⟨[before.length] ++ (optionLoop (before ++ arg :: rest) (before.length + 1) options).used,
        (optionLoop (before ++ arg :: rest) (before.length + 1) options).result⟩ := by
  have hlength : before.length < (before ++ arg :: rest).length := by simp
  have harg : (before ++ arg :: rest)[before.length] = arg := by simp
  rw [optionLoop, dif_pos hlength, harg, body_eq, h]

theorem optionLoop_option {name value : CString} {option : OptionName}
    (h : optionName name = some option) (rest : List CString) :
    optionLoop (before ++ name :: value :: rest) before.length options =
      ⟨[before.length, before.length + 1] ++
          (optionLoop (before ++ name :: value :: rest) (before.length + 2)
            (options.assign (option, value))).used,
        (optionLoop (before ++ name :: value :: rest) (before.length + 2)
          (options.assign (option, value))).result⟩ := by
  have hlength : before.length < (before ++ name :: value :: rest).length := by simp
  have hname : (before ++ name :: value :: rest)[before.length] = name := by simp
  have htest : ¬ before.length + 1 > (before ++ name :: value :: rest).length := by
    rw [List.length_append, List.length_cons]
    omega
  have hvalue : (before ++ name :: value :: rest)[before.length + 1]? = some value := by simp
  rw [optionLoop, dif_pos hlength, hname, body_eq, h]
  dsimp only
  rw [takeValue, if_neg htest, hvalue]

/-- The test of the source lets the index of the null pointer pass. -/
theorem optionLoop_trailing {name : CString} {option : OptionName}
    (h : optionName name = some option) :
    optionLoop (before ++ [name]) before.length options =
      ⟨[before.length, before.length + 1], .error .nullString⟩ := by
  have hlength : before.length < (before ++ [name]).length := by simp
  have hname : (before ++ [name])[before.length] = name := by simp
  have htest : ¬ before.length + 1 > (before ++ [name]).length := by
    rw [List.length_append, List.length_singleton]
    omega
  have hvalue : (before ++ [name])[before.length + 1]? = none := by simp
  rw [optionLoop, dif_pos hlength, hname, body_eq, h]
  dsimp only
  rw [takeValue, if_neg htest, hvalue]

end Iterations

/-- **Complete arguments** are read up to their end, and assigned from left to right. -/
theorem optionLoop_complete {front : List CString} (h : Complete front)
    (before tail : List CString) (options : Options) :
    ∃ used, (∀ k ∈ used, before.length ≤ k ∧ k < before.length + front.length) ∧
      optionLoop (before ++ (front ++ tail)) before.length options =
        ⟨used ++ (optionLoop (before ++ (front ++ tail)) (before.length + front.length)
            ((assignments front).foldl Options.assign options)).used,
          (optionLoop (before ++ (front ++ tail)) (before.length + front.length)
            ((assignments front).foldl Options.assign options)).result⟩ := by
  induction h generalizing before options with
  | nil => exact ⟨[], fun k hk => absurd hk List.not_mem_nil, rfl⟩
  | @other arg rest harg hrest ih =>
      obtain ⟨used, hused, hloop⟩ := ih (before ++ [arg]) options
      rw [List.append_assoc, List.singleton_append, List.length_append, List.length_singleton]
        at hloop
      rw [List.length_append, List.length_singleton] at hused
      refine ⟨before.length :: used, ?_, ?_⟩
      · intro k hk
        rw [List.length_cons]
        rcases List.mem_cons.mp hk with rfl | hk
        · omega
        · have hbounds := hused k hk
          omega
      · rw [List.cons_append, optionLoop_other options harg, hloop, assignments_other harg,
          List.length_cons, Nat.add_right_comm before.length 1, Nat.add_assoc before.length]
        rfl
  | @option name value rest option hname hrest ih =>
      obtain ⟨used, hused, hloop⟩ := ih (before ++ [name, value])
        (options.assign (option, value))
      rw [List.append_assoc, List.length_append] at hloop
      rw [List.length_append] at hused
      refine ⟨before.length :: (before.length + 1) :: used, ?_, ?_⟩
      · intro k hk
        simp only [List.mem_cons] at hk
        simp only [List.length_cons, List.length_nil] at hused ⊢
        rcases hk with rfl | rfl | hk
        · omega
        · omega
        · have hbounds := hused k hk
          omega
      · have hlength : before.length + (name :: value :: rest).length =
            before.length + [name, value].length + rest.length := by
          simp only [List.length_cons, List.length_nil]
          omega
        rw [assignments_option hname, List.foldl_cons, hlength]
        rw [List.cons_append, List.cons_append, optionLoop_option options hname]
        have hloop' : optionLoop (before ++ name :: value :: (rest ++ tail)) (before.length + 2)
            (options.assign (option, value)) = _ := hloop
        rw [hloop']
        rfl

/-- Arguments are complete or end in an option name that is left over. -/
theorem complete_or_trailing (args : List CString) :
    Complete args ∨ ∃ front name option, Complete front ∧ optionName name = some option ∧
      args = front ++ [name] := by
  induction args using assignments.induct with
  | case1 name value rest option hname ih =>
      rcases ih with hrest | ⟨front, last, lastOption, hfront, hlast, rfl⟩
      · exact .inl (.option hname hrest)
      · exact .inr ⟨name :: value :: front, last, lastOption, .option hname hfront, hlast, rfl⟩
  | case2 name value rest hname ih =>
      rcases ih with hrest | ⟨front, last, lastOption, hfront, hlast, hrest⟩
      · exact .inl (.other hname hrest)
      · exact .inr ⟨name :: front, last, lastOption, .other hname hfront, hlast, by rw [hrest]; rfl⟩
  | case3 name =>
      cases hname : optionName name with
      | none => exact .inl (.other hname .nil)
      | some option => exact .inr ⟨[], name, option, .nil, hname, rfl⟩
  | case4 => exact .inl .nil

/-- An option name left over makes the loop use the null pointer. -/
theorem parseArguments_trailing {program : CString} {front : List CString} {name : CString}
    {option : OptionName} (hfront : Complete front) (hname : optionName name = some option) :
    (parseArguments (program :: (front ++ [name]))).result = .error .nullString := by
  obtain ⟨used, -, hloop⟩ := optionLoop_complete hfront [program] [name] .default
  have htrailing := @optionLoop_trailing ([program] ++ front)
    ((assignments front).foldl Options.assign .default) name option hname
  rw [List.append_assoc, List.length_append] at htrailing
  rw [htrailing] at hloop
  exact congrArg Outcome.result hloop

theorem parseArguments_complete {program : CString} {rest : List CString} (h : Complete rest) :
    MeetsScan (program :: rest) := by
  obtain ⟨used, hused, hloop⟩ := optionLoop_complete h [program] [] .default
  have hend : optionLoop ([program] ++ (rest ++ [])) ([program].length + rest.length)
      ((assignments rest).foldl Options.assign .default) =
        ⟨[], .ok ((assignments rest).foldl Options.assign .default)⟩ :=
    optionLoop_end (Nat.le_of_eq (by rw [List.append_nil, List.length_append])) _
  rw [hend, List.append_nil, List.append_nil] at hloop
  have hparse : parseArguments (program :: rest) =
      ⟨used, .ok ((assignments rest).foldl Options.assign .default)⟩ := hloop
  rw [MeetsScan, hparse]
  constructor
  · intro k hk
    have hbounds := hused k hk
    simp only [List.length_cons, List.length_nil] at hbounds ⊢
    omega
  · rw [List.tail_cons, requested_eq]

/-- **The option loop** meets its specification exactly when every option name that is
    not a value has one. -/
theorem meetsScan_iff (args : List CString) : MeetsScan args ↔ Complete args.tail := by
  cases args with
  | nil =>
      apply iff_of_true
      · rw [MeetsScan, parseArguments, optionLoop_end (Nat.zero_le 1)]
        exact ⟨fun k hk => absurd hk List.not_mem_nil, rfl⟩
      · exact .nil
  | cons program rest =>
      constructor
      · intro hmeets
        rcases complete_or_trailing rest with hcomplete | ⟨front, name, option, hfront, hname, rfl⟩
        · exact hcomplete
        · have hresult := hmeets.2
          rw [parseArguments_trailing hfront hname] at hresult
          cases hresult
      · exact parseArguments_complete

/-- The only argument is `-p`. -/
theorem not_always_meetsScan : ¬ ∀ args : List CString, MeetsScan args := by
  intro hall
  let program : CString := ⟨['r'.toUInt8], by decide⟩
  have hresult := (hall [program, textP]).2
  have hnull : (parseArguments [program, textP]).result = .error .nullString :=
    @parseArguments_trailing program [] textP .p .nil (by decide)
  rw [hnull] at hresult
  cases hresult

end Lame.CommandLine
