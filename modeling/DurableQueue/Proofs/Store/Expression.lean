import DurableQueue.Proofs.Settings.FailureDelay
import DurableQueue.Proofs.Store.Statements
import Mathlib.Algebra.Order.Field.Rat
import Mathlib.Data.List.SplitBy
import Mathlib.Data.Rat.Lemmas
import Mathlib.Tactic.NormNum

/-!
# The values of expressions

The text of an expression in a statement, read as it stands there, with exact numbers.

* `tokens` cuts a text into words, numbers and signs;
* `evaluate` computes the value, with products before sums and a `Level` for each parenthesis that
  is open, and `value?` is the value of a whole text;
* `evaluate_factor`: a factor is read as its value.

**The delay of a claim is that of the settings** (`claimed_delay_agrees`): the expression multiplies
the retry interval by the number that the delay after so many attempts goes by.
-/

namespace DurableQueue.Sql.Expression

open Identifier

/-! ### Words, numbers and signs -/

/-- A part of the text of an expression. -/
inductive Token
  | number (n : Nat)
  /-- A column of the row `q`. -/
  | column (name : String)
  /-- Another word, or a sign. -/
  | word (w : String)
  deriving DecidableEq, Repr

/-- What a run of characters is. -/
def Token.of (run : List Char) : Token :=
  match Decimal.value? run with
  | some n => .number n
  | none =>
    match Text.stripPrefix ['q', '.'] run with
    | some name => .column (String.ofList name)
    | none => .word (String.ofList run)

/-- Two characters that belong to one word when they stand side by side. -/
def joined (a b : Char) : Bool := isTableChar a && isTableChar b

/-- The parts of a text. Each sign is a part of its own, and blanks say nothing. -/
def tokens (cs : List Char) : List Token := ((cs.splitBy joined).filter (· ≠ [' '])).map Token.of

/-! ### Values -/

/-- What a pair of parentheses is for. -/
inductive Bracket
  | group
  | least
  | power
  deriving DecidableEq, Repr

/-- The value of parentheses by the values of what stands between commas. A power is taken of
whole exponents only. -/
def Bracket.value? : Bracket → List ℚ → Option ℚ
  | .group, [x] => some x
  | .least, x :: xs => some (xs.foldl min x)
  | .power, [x, y] => if y = y.num.toNat then some (x ^ y.num.toNat) else none
  | _, _ => none

/-- The inside of parentheses, as far as it has been read: the values in front of the last comma,
the sum in front of the last plus sign, and the product after that. -/
structure Level where
  bracket : Bracket := .group
  arguments : List ℚ := []
  sum : ℚ := 0
  product : ℚ := 1

namespace Level

/-- One more factor. -/
def times (l : Level) (x : ℚ) : Level := { l with product := l.product * x }

/-- The next term. -/
def plus (l : Level) : Level := { l with sum := l.sum + l.product, product := 1 }

/-- The values between commas. -/
def values (l : Level) : List ℚ := l.arguments ++ [l.sum + l.product]

/-- The next argument. -/
def comma (l : Level) : Level := { bracket := l.bracket, arguments := l.values }

/-- The value of the whole. -/
def value? (l : Level) : Option ℚ := l.bracket.value? l.values

end Level

/-- What has to come next. -/
inductive Awaited
  | operand
  | operator
  deriving DecidableEq, Repr

/-- Read the rest of an expression, given the columns of the row and the values that are bound; an
interval counts its milliseconds. A cast changes the type of a number and not its value. -/
def evaluate (row : String → ℚ) (bound : Nat → ℚ) :
    Awaited → List Level → List Token → Option ℚ
  | .operand, l :: ls, .number n :: ts => evaluate row bound .operator (l.times n :: ls) ts
  | .operand, l :: ls, .column c :: ts => evaluate row bound .operator (l.times (row c) :: ls) ts
  | .operand, l :: ls, .word "$" :: .number n :: ts =>
    evaluate row bound .operator (l.times (bound n) :: ls) ts
  | .operand, l :: ls, .word "interval" :: .word "'" :: .number n :: .word "millisecond" ::
      .word "'" :: ts => evaluate row bound .operator (l.times n :: ls) ts
  | .operand, ls, .word "(" :: ts => evaluate row bound .operand ({} :: ls) ts
  | .operand, ls, .word "LEAST" :: .word "(" :: ts =>
    evaluate row bound .operand ({ bracket := .least } :: ls) ts
  | .operand, ls, .word "power" :: .word "(" :: ts =>
    evaluate row bound .operand ({ bracket := .power } :: ls) ts
  | .operator, ls, .word ":" :: .word ":" :: .word "float8" :: ts =>
    evaluate row bound .operator ls ts
  | .operator, l :: ls, .word "*" :: ts => evaluate row bound .operand (l :: ls) ts
  | .operator, l :: ls, .word "+" :: ts => evaluate row bound .operand (l.plus :: ls) ts
  | .operator, l :: ls, .word "," :: ts => evaluate row bound .operand (l.comma :: ls) ts
  | .operator, l :: m :: ls, .word ")" :: ts =>
    match l.value? with
    | some x => evaluate row bound .operator (m.times x :: ls) ts
    | none => none
  | .operator, [l], [] => l.value?
  | _, _, _ => none

/-- The text of parts of a statement. -/
def textOf (pieces : List Piece) : List Char := pieces.flatMap Piece.text

/-- The value of an expression. -/
def value? (row : String → ℚ) (bound : Nat → ℚ) (pieces : List Piece) : Option ℚ :=
  evaluate row bound .operand [{}] (tokens (textOf pieces))

@[simp] theorem textOf_nil : textOf [] = [] := rfl

@[simp] theorem textOf_cons (p : Piece) (ps : List Piece) :
    textOf (p :: ps) = p.text ++ textOf ps :=
  List.flatMap_cons

@[simp] theorem textOf_append (ps qs : List Piece) : textOf (ps ++ qs) = textOf ps ++ textOf qs :=
  List.flatMap_append

/-! ### Cutting a text -/

section

variable {a b w : List Char}

/-- A text that does not begin with a word. -/
def EndsWord (cs : List Char) : Prop := ∀ c ∈ cs.head?, isTableChar c = false

/-- A text that does not end with a word. -/
def EndsInSign (cs : List Char) : Prop := ∀ c ∈ cs.getLast?, isTableChar c = false

instance : DecidablePred EndsWord := fun cs =>
  decidable_of_iff (cs.head?.all fun c => !isTableChar c)
    (by simp [EndsWord, Option.all_eq_true])

instance : DecidablePred EndsInSign := fun cs =>
  decidable_of_iff (cs.getLast?.all fun c => !isTableChar c)
    (by simp [EndsInSign, Option.all_eq_true])

theorem tokens_append (h : ∀ x ∈ a.getLast?, ∀ y ∈ b.head?, joined x y = false) :
    tokens (a ++ b) = tokens a ++ tokens b := by
  simp [tokens, List.splitBy_append h]

/-- Two texts are cut one by one when the second does not begin with a word. -/
theorem tokens_append_of_endsWord (h : EndsWord b) : tokens (a ++ b) = tokens a ++ tokens b :=
  tokens_append fun _ _ y hy => by simp [joined, h y hy]

/-- Two texts are cut one by one when the first does not end with a word. -/
theorem tokens_append_of_endsInSign (h : EndsInSign a) : tokens (a ++ b) = tokens a ++ tokens b :=
  tokens_append fun x hx _ _ => by simp [joined, h x hx]

/-- A sign keeps the texts around it apart. -/
theorem tokens_around (hne : w ≠ []) (hstart : EndsWord w) (hend : EndsInSign w) :
    tokens (a ++ (w ++ b)) = tokens a ++ (tokens w ++ tokens b) := by
  have hwb : EndsWord (w ++ b) := by
    rw [EndsWord, List.head?_append_of_ne_nil w hne]
    exact hstart
  rw [tokens_append_of_endsWord hwb, tokens_append_of_endsInSign hend]

/-- A run of word characters is one part. -/
theorem tokens_run (hne : a ≠ []) (h : ∀ c ∈ a, isTableChar c = true) : tokens a = [.of a] := by
  have hchain : a.IsChain fun x y => joined x y = true := by
    refine List.Pairwise.isChain (List.pairwise_of_forall_mem_list fun x hx y hy => ?_)
    simp [joined, h x hx, h y hy]
  have hblank : a ≠ [' '] := by
    rintro rfl
    simpa [isTableChar, isColumnChar] using h ' ' (by simp)
  simp [tokens, List.splitBy_of_isChain hne hchain, hblank]

theorem tokens_digits (n : Nat) : tokens (Decimal.digits n) = [.number n] := by
  rw [tokens_run (Decimal.digits_ne_nil n), Token.of, Decimal.value?_digits]
  intro c hc
  have hdigit : c.isDigit = true := Decimal.isDigit_of_mem_digits hc
  simp [isTableChar, isColumnChar, Char.isAlphanum, hdigit]

theorem tokens_column {column : String} (h : IsColumnName column) :
    tokens ("q.".toList ++ column.toList) = [.column column] := by
  have hq : "q.".toList = ['q', '.'] := rfl
  have hnumber : Decimal.value? (['q', '.'] ++ column.toList) = none := by
    simp [Decimal.value?, Char.isDigit]
  rw [hq, tokens_run (by simp), Token.of, hnumber]
  · simp [Text.stripPrefix]
  · intro c hc
    simp only [List.mem_append, List.mem_cons, List.not_mem_nil, or_false] at hc
    rcases hc with (rfl | rfl) | hc
    · rfl
    · rfl
    · simp [isTableChar, h c hc]

end

/-! ### Factors -/

/-- The parts of a factor. -/
def factorTokens (column : String) : Factor → List Token
  | .number n => [.number n]
  | .float n => [.number n, .word ":", .word ":", .word "float8"]
  | .attempts => [.column column]
  | .least a b => [.word "LEAST", .word "("] ++
    (factorTokens column a ++ ([.word ","] ++ (factorTokens column b ++ [.word ")"])))
  | .power a b => [.word "power", .word "("] ++
    (factorTokens column a ++ ([.word ","] ++ (factorTokens column b ++ [.word ")"])))
  | .sum a b => [.word "("] ++
    (factorTokens column a ++ ([.word "+"] ++ (factorTokens column b ++ [.word ")"])))
  | .product a b => factorTokens column a ++ ([.word "*"] ++ factorTokens column b)

section

variable {row : String → ℚ} {bound : Nat → ℚ} {l : Level} {ls : List Level} {ts : List Token}
  {column : String} {attempts : Nat}

/-- Two texts behind an opening parenthesis, with a sign between them. -/
theorem tokens_enclosed (opening sign : String) (a b : List Char)
    (hopening : EndsInSign opening.toList)
    (hsign : sign.toList ≠ [] ∧ EndsWord sign.toList ∧ EndsInSign sign.toList) :
    tokens (opening.toList ++ (a ++ (sign.toList ++ (b ++ ")".toList))))
      = tokens opening.toList ++
        (tokens a ++ (tokens sign.toList ++ (tokens b ++ [.word ")"]))) := by
  obtain ⟨hne, hstart, hend⟩ := hsign
  have hclose : EndsWord ")".toList := by decide
  rw [tokens_append_of_endsInSign hopening, tokens_around hne hstart hend,
    tokens_append_of_endsWord hclose]
  rfl

/-- The text of a factor is cut into its parts. -/
theorem tokens_factor (h : IsColumnName column) (f : Factor) :
    tokens (textOf (f.pieces column)) = factorTokens column f := by
  induction f with
  | number n => simpa [Factor.pieces, Piece.text, factorTokens] using tokens_digits n
  | float n =>
    have htext : textOf ((Factor.float n).pieces column)
        = Decimal.digits n ++ "::float8".toList := by simp [Factor.pieces, Piece.text]
    have hcast : EndsWord "::float8".toList := by decide
    rw [htext, tokens_append_of_endsWord hcast, tokens_digits]
    rfl
  | attempts => simpa [Factor.pieces, Piece.text, factorTokens] using tokens_column h
  | least a b iha ihb =>
    rw [factorTokens, ← iha, ← ihb]
    have htext : textOf ((a.least b).pieces column) = "LEAST(".toList ++
        (textOf (a.pieces column) ++
          (", ".toList ++ (textOf (b.pieces column) ++ ")".toList))) := by
      simp [Factor.pieces, Piece.text]
    rw [htext]
    exact tokens_enclosed "LEAST(" ", " _ _ (by decide) (by decide)
  | power a b iha ihb =>
    rw [factorTokens, ← iha, ← ihb]
    have htext : textOf ((a.power b).pieces column) = "power(".toList ++
        (textOf (a.pieces column) ++
          (", ".toList ++ (textOf (b.pieces column) ++ ")".toList))) := by
      simp [Factor.pieces, Piece.text]
    rw [htext]
    exact tokens_enclosed "power(" ", " _ _ (by decide) (by decide)
  | sum a b iha ihb =>
    rw [factorTokens, ← iha, ← ihb]
    have htext : textOf ((a.sum b).pieces column) = "(".toList ++
        (textOf (a.pieces column) ++
          (" + ".toList ++ (textOf (b.pieces column) ++ ")".toList))) := by
      simp [Factor.pieces, Piece.text]
    rw [htext]
    exact tokens_enclosed "(" " + " _ _ (by decide) (by decide)
  | product a b iha ihb =>
    rw [factorTokens, ← iha, ← ihb]
    have htext : textOf ((a.product b).pieces column)
        = textOf (a.pieces column) ++ (" * ".toList ++ textOf (b.pieces column)) := by
      simp [Factor.pieces, Piece.text]
    rw [htext]
    exact tokens_around (by decide) (by decide) (by decide)

@[simp] theorem value_attempts (n : Nat) : Factor.attempts.value n = n := rfl

@[simp] theorem value_least (a b : Factor) (n : Nat) :
    (a.least b).value n = min (a.value n) (b.value n) := rfl

@[simp] theorem value_power (a b : Factor) (n : Nat) :
    (a.power b).value n = a.value n ^ b.value n := rfl

@[simp] theorem value_sum (a b : Factor) (n : Nat) :
    (a.sum b).value n = a.value n + b.value n := rfl

@[simp] theorem value_product (a b : Factor) (n : Nat) :
    (a.product b).value n = a.value n * b.value n := rfl

/-- A factor is read as its value, whatever it is a part of. -/
theorem evaluate_factor (hrow : row column = attempts) (f : Factor) :
    evaluate row bound .operand (l :: ls) (factorTokens column f ++ ts)
      = evaluate row bound .operator (l.times (f.value attempts) :: ls) ts := by
  induction f generalizing l ls ts with
  | number n => rfl
  | float n => rfl
  | attempts => simp [factorTokens, evaluate, hrow]
  | least a b iha ihb =>
    simp [factorTokens, evaluate, iha, ihb, Level.times, Level.comma, Level.value?, Level.values,
      Bracket.value?]
  | power a b iha ihb =>
    simp [factorTokens, evaluate, iha, ihb, Level.times, Level.comma, Level.value?, Level.values,
      Bracket.value?]
  | sum a b iha ihb =>
    simp [factorTokens, evaluate, iha, ihb, Level.times, Level.plus, Level.value?, Level.values,
      Bracket.value?]
  | product a b iha ihb =>
    simp [factorTokens, evaluate, iha, ihb, Level.times, mul_assoc]

/-! ### Failure delays -/

theorem tokens_interval (slot : Nat) :
    tokens (textOf (interval slot)) = [.word "$", .number slot, .word ":", .word ":",
      .word "float8", .word "*", .word "interval", .word "'", .number 1, .word "millisecond",
      .word "'"] := by
  have htext : textOf (interval slot) = "$".toList ++
      (Decimal.digits slot ++ "::float8 * interval '1 millisecond'".toList) := by
    simp [interval, Piece.text]
  have hunit : EndsWord "::float8 * interval '1 millisecond'".toList := by decide
  have hsign : EndsInSign "$".toList := by decide
  rw [htext, tokens_append_of_endsInSign hsign, tokens_append_of_endsWord hunit, tokens_digits]
  rfl

/-- The milliseconds that are bound end an expression. -/
theorem evaluate_interval (slot : Nat) :
    evaluate row bound .operand [l] (tokens (textOf (interval slot)))
      = (l.times (bound slot)).value? := by
  rw [tokens_interval]
  simp [evaluate, Level.times]

/-- The value of a failure delay is the factor, if there is one, times the milliseconds. -/
theorem value?_failureDelay (hcolumn : IsColumnName column) (hrow : row column = attempts)
    (type : FailureRetryType) (slot : Nat) :
    value? row bound (failureDelay column type slot)
      = some ((((failureFactor? type).map (Factor.value attempts)).getD 1 : Nat) * bound slot) := by
  rw [value?, failureDelay]
  cases failureFactor? type with
  | none =>
    rw [evaluate_interval]
    simp [Level.times, Level.value?, Level.values, Bracket.value?]
  | some f =>
    have htext : textOf (f.pieces column ++ .words " * " :: interval slot)
        = textOf (f.pieces column) ++ (" * ".toList ++ textOf (interval slot)) := by
      simp [Piece.text]
    have htimes : tokens " * ".toList = [.word "*"] := rfl
    simp only [htext]
    rw [tokens_around (by decide) (by decide) (by decide), tokens_factor hcolumn,
      evaluate_factor hrow, htimes, List.singleton_append, evaluate, evaluate_interval]
    simp [Level.times, Level.value?, Level.values, Bracket.value?]

end

/-- Attempts of up to 31 bits make the factor of the expression that of the settings. -/
theorem value_failureFactor (type : FailureRetryType) {attempts : Nat} (h : attempts < 2 ^ 31) :
    ((failureFactor? type).map (Factor.value attempts)).getD 1 = type.multiplier attempts := by
  have hmax : Decimal.max32 + 1 = 2 ^ 32 := by decide
  rw [FailureRetryType.multiplier_eq_factor]
  cases type with
  | linear => rfl
  | arithmetic =>
    show 1 + 2 * attempts = min Decimal.max32 (2 * attempts + 1)
    omega
  | geometric =>
    show min (2 ^ min attempts 32) Decimal.max32 = min Decimal.max32 (2 ^ attempts)
    rcases Nat.le_total attempts 32 with hle | hge
    · rw [Nat.min_eq_left hle, Nat.min_comm]
    · -- both powers have passed the greatest number
      have hpow : 2 ^ 32 ≤ 2 ^ attempts := Nat.pow_le_pow_right (by decide) hge
      rw [Nat.min_eq_right hge]
      omega

/-- One attempt more, and the odd number has passed the greatest one. -/
example : ((failureFactor? .arithmetic).map (Factor.value (2 ^ 31))).getD 1
    = FailureRetryType.arithmetic.multiplier (2 ^ 31) + 2 := by decide

/-- **The delay of a claim is that of the settings.** The statement that claims a row moves it by an
expression, to which the retry interval is bound in milliseconds. Read with exact numbers, the text
of the expression multiplies the interval by the very number that the delay after so many attempts
goes by before it stops at the greatest delay. -/
theorem claimed_delay_agrees {s : Schema} (hs : IsColumnName s.attempt) (l : Location)
    (failure : FailureSettings) (attempts : Count) (h : attempts.val < 2 ^ 31) :
    [.name s.nextProcessAt, .words " = now() + "] ++ failureDelay s.attempt failure.retryType 2
      <:+: (pickStatement s l failure).pieces ∧
    (pickStatement s l failure).values[1]? = some (.millis failure.retryInterval) ∧
    (∀ (row : String → ℚ) (bound : Nat → ℚ), row s.attempt = attempts.val →
      value? row bound (failureDelay s.attempt failure.retryType 2)
        = some (failure.retryType.multiplier attempts.val * bound 2)) ∧
    ∀ interval : Delay,
      (FailureSettings.delayForAttempt ⟨failure.retryType, interval⟩ attempts).nanos
        = min (interval.nanos * failure.retryType.multiplier attempts.val) Delay.limit := by
  refine ⟨?_, rfl, fun row bound hrow => ?_, fun interval => rfl⟩
  · simp only [pickStatement, List.append_assoc, List.cons_append, List.nil_append]
    -- thirteen parts stand in front of the column
    iterate 13 refine List.infix_cons ?_
    exact List.IsPrefix.isInfix ⟨_, rfl⟩
  · rw [value?_failureDelay hs hrow, value_failureFactor failure.retryType h]

/-- After the greatest number of attempts that a column of 32 bits holds, the odd number is the
greatest counter. -/
theorem last_odd_number_agrees :
    (FailureSettings.delayForAttempt ⟨.arithmetic, .ofMillis 5⟩ (.clamp 2147483647)).nanos
      = 5000000 * 4294967295 ∧
    textOf (failureDelay "attempt" .arithmetic 2)
      = "(1 + 2 * q.attempt) * $2::float8 * interval '1 millisecond'".toList ∧
    value? (fun _ => 2147483647) (fun _ => 5) (failureDelay "attempt" .arithmetic 2)
      = some (4294967295 * 5) := by
  have hattempts : (Count.clamp 2147483647).val = 2147483647 := by decide
  obtain ⟨-, -, hvalue, hdelay⟩ := claimed_delay_agrees Schema.isClean_default.attempt
    (.of "orders" "tasks") ⟨.arithmetic, .ofMillis 5⟩ (.clamp 2147483647) (by decide)
  refine ⟨?_, by decide +kernel, ?_⟩
  · rw [hdelay]
    decide
  · exact hvalue (fun _ => 2147483647) (fun _ => 5) (by rw [hattempts]; norm_num)

end DurableQueue.Sql.Expression
