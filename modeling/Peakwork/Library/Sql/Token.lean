/-
This file reads the text of an SQL statement into tokens.
-/

import Mathlib.Tactic

namespace Peakwork.Sql

/-- The fragment names the tokens that it needs; `outside` stands for the first other one. -/
inductive Token where
  | word (text : String)
  | quoted (text : String)
  | number (value : Nat)
  | parameter (name : String)
  | symbol (mark : Char)
  | illegal
  | outside
  deriving DecidableEq, Repr

/-- The scanner reads one character at a time and keeps what it has read of the open token. -/
inductive Scan where
  | between
  | word (read : List Char)
  | number (value : Nat)
  | parameter (read : List Char)
  | quoted (read : List Char)
  | closing (read : List Char)
  | dash
  | slash
  | lineComment
  | blockComment
  | blockStar
  | outside
  deriving DecidableEq, Repr

def isBlank (c : Char) : Bool := c = ' ' ∨ c = '\t' ∨ c = '\n' ∨ c = '\r' ∨ c = '\x0c'

def isWordStart (c : Char) : Bool := c.isAlpha ∨ c = '_' ∨ 128 ≤ c.toNat

def isWordPart (c : Char) : Bool := isWordStart c ∨ c.isDigit ∨ c = '$'

def isMark (c : Char) : Bool := c = '(' ∨ c = ')' ∨ c = ',' ∨ c = '=' ∨ c = ';'

def digitOf (c : Char) : Nat := c.toNat - '0'.toNat

/-- A token may begin at this character. -/
def begin (c : Char) : List Token × Scan :=
  if isBlank c then ([], .between)
  else if isWordStart c then ([], .word [c])
  else if c.isDigit then ([], .number (digitOf c))
  else if c = ':' then ([], .parameter [c])
  else if c = '"' then ([], .quoted [])
  else if c = '-' then ([], .dash)
  else if c = '/' then ([], .slash)
  else if isMark c then ([.symbol c], .between)
  else ([], .outside)

/-- The open token ends and the character begins the next one. -/
def after (token : Token) (c : Char) : List Token × Scan :=
  (token :: (begin c).1, (begin c).2)

/-- A doubled quote inside a quoted token stands for one quote. -/
def next : Scan → Char → List Token × Scan
  | .between, c => begin c
  | .word read, c =>
      if isWordPart c then ([], .word (read ++ [c])) else after (.word (String.ofList read)) c
  | .number value, c =>
      if c.isDigit then ([], .number (10 * value + digitOf c))
      else if isWordPart c ∨ c = '.' then ([], .outside)
      else after (.number value) c
  | .parameter read, c =>
      if isWordPart c then ([], .parameter (read ++ [c]))
      else if c = '(' ∨ c = ':' ∨ read = [':'] then ([], .outside)
      else after (.parameter (String.ofList read)) c
  | .quoted read, c => if c = '"' then ([], .closing read) else ([], .quoted (read ++ [c]))
  | .closing read, c =>
      if c = '"' then ([], .quoted (read ++ [c])) else after (.quoted (String.ofList read)) c
  | .dash, c => if c = '-' then ([], .lineComment) else after (.symbol '-') c
  | .slash, c => if c = '*' then ([], .blockComment) else ([], .outside)
  | .lineComment, c => if c = '\n' then ([], .between) else ([], .lineComment)
  | .blockComment, c => if c = '*' then ([], .blockStar) else ([], .blockComment)
  | .blockStar, c =>
      if c = '/' then ([], .between) else if c = '*' then ([], .blockStar) else ([], .blockComment)
  | .outside, _ => ([], .outside)

/-- The end of the text closes the open token; a quoted token without its quote is illegal. -/
def finish : Scan → List Token
  | .between | .lineComment | .blockComment | .blockStar => []
  | .word read => [.word (String.ofList read)]
  | .number value => [.number value]
  | .parameter read => if read = [':'] then [.outside] else [.parameter (String.ofList read)]
  | .quoted _ => [.illegal]
  | .closing read => [.quoted (String.ofList read)]
  | .dash => [.symbol '-']
  | .slash | .outside => [.outside]

def scan : Scan → List Char → List Token
  | state, [] => finish state
  | state, c :: rest => (next state c).1 ++ scan (next state c).2 rest

/-- The tokens of a part of the text, with the state in which the part leaves the scanner. -/
def scanPart : Scan → List Char → List Token × Scan
  | state, [] => ([], state)
  | state, c :: rest =>
      ((next state c).1 ++ (scanPart (next state c).2 rest).1, (scanPart (next state c).2 rest).2)

theorem scan_append (state : Scan) (part rest : List Char) :
    scan state (part ++ rest) = (scanPart state part).1 ++ scan (scanPart state part).2 rest := by
  induction part generalizing state with
  | nil => rfl
  | cons c part ih =>
      simp only [List.cons_append, scan, scanPart, ih, List.append_assoc]

/-- A digit after a digit extends the number. -/
theorem scanPart_digits (value : Nat) (digits : List Char) (all : ∀ c ∈ digits, c.isDigit) :
    scanPart (.number value) digits = ([], .number (Nat.ofDigitChars 10 digits value)) := by
  induction digits generalizing value with
  | nil => simp [scanPart]
  | cons c digits ih =>
      have digit : c.isDigit := all c (by simp)
      have tail := ih (10 * value + digitOf c) fun d member => all d (by simp [member])
      simp only [scanPart, next, digit, if_true, tail, List.nil_append, Nat.ofDigitChars_cons]
      rfl

theorem digit_code (c : Char) (digit : c.isDigit) : 48 ≤ c.toNat ∧ c.toNat ≤ 57 := by
  simpa [Char.isDigit, UInt32.le_iff_toNat_le] using digit

/-- No name starts with a digit. -/
theorem not_isWordStart (c : Char) (digit : c.isDigit) : isWordStart c = false := by
  have code := digit_code c digit
  have letter : c.isAlpha = false := by
    have upper : ¬ 'A'.val ≤ c.val := by
      rw [UInt32.le_iff_toNat_le, Char.toNat_val, Char.toNat_val]
      change ¬ 65 ≤ c.toNat
      omega
    have lower : ¬ 'a'.val ≤ c.val := by
      rw [UInt32.le_iff_toNat_le, Char.toNat_val, Char.toNat_val]
      change ¬ 97 ≤ c.toNat
      omega
    change (decide ('A'.val ≤ c.val ∧ c.val ≤ 'Z'.val) ||
      (decide ('a'.val ≤ c.val) && decide (c.val ≤ 'z'.val))) = false
    rw [decide_eq_false (fun both => upper both.1), decide_eq_false lower, Bool.false_or, Bool.false_and]
  have underscore : c ≠ '_' := by rintro rfl; revert code; decide
  simp [isWordStart, letter, underscore]
  omega

theorem begin_digit (c : Char) (digit : c.isDigit) : begin c = ([], .number (digitOf c)) := by
  have code := digit_code c digit
  have notBlank : isBlank c = false := by
    simp only [isBlank, decide_eq_false_iff_not]
    rintro (rfl | rfl | rfl | rfl | rfl) <;> revert code <;> decide
  simp [begin, notBlank, not_isWordStart c digit, digit]

/-- A printed number is read back. -/
theorem scanPart_toDigits (value : Nat) :
    scanPart .between (Nat.toDigits 10 value) = ([], .number value) := by
  have all : ∀ c ∈ Nat.toDigits 10 value, c.isDigit := fun c member =>
    Nat.isDigit_of_mem_toDigits (by decide) (by decide) member
  have read := @Nat.ofDigitChars_ten_toDigits value
  cases digits : Nat.toDigits 10 value with
  | nil => simp at digits
  | cons c rest =>
      rw [digits] at all read
      have tail := scanPart_digits (digitOf c) rest fun d member => all d (by simp [member])
      simp only [Nat.ofDigitChars_cons, Nat.mul_zero, Nat.zero_add] at read
      simp only [scanPart, next, begin_digit c (all c (by simp)), tail, List.nil_append]
      rw [show digitOf c = c.toNat - '0'.toNat from rfl, read]

/-- A minus before anything but another minus is a token of its own. -/
theorem scanPart_dash (c : Char) (rest : List Char) (other : c ≠ '-') : scanPart .dash (c :: rest) =
    (.symbol '-' :: (scanPart .between (c :: rest)).1, (scanPart .between (c :: rest)).2) := by
  simp [scanPart, next, after, other]

theorem scanPart_dash_toDigits (value : Nat) :
    scanPart .dash (Nat.toDigits 10 value) = ([.symbol '-'], .number value) := by
  have read := scanPart_toDigits value
  cases digits : Nat.toDigits 10 value with
  | nil => simp at digits
  | cons c rest =>
      have digit : c.isDigit := Nat.isDigit_of_mem_toDigits (by decide) (by decide) (digits ▸ List.mem_cons_self)
      have other : c ≠ '-' := by
        rintro rfl
        exact absurd digit (by decide)
      rw [digits] at read
      rw [scanPart_dash c rest other, read]

/-- A text without a quote stays inside its quoted token. -/
theorem scanPart_quoted (read text : List Char) (plain : '"' ∉ text) :
    scanPart (.quoted read) text = ([], .quoted (read ++ text)) := by
  induction text generalizing read with
  | nil => simp [scanPart]
  | cons c text ih =>
      have different : c ≠ '"' := by rintro rfl; simp at plain
      have tail := ih (read ++ [c]) (by simp_all)
      simp only [scanPart, next, different, if_false, tail, List.nil_append, List.append_assoc,
        List.singleton_append]

/-- A text with a quote never gives the token that denotes it: the token ends early, or it loses
one quote of a pair, or it does not end. -/
theorem scan_quoted_shorter (read text : List Char) :
    scan (.quoted read) (text ++ ['"', ' ']) = [.illegal] ∨
      ∃ content rest, scan (.quoted read) (text ++ ['"', ' ']) =
          .quoted (String.ofList content) :: rest ∧
        content.length ≤ read.length + text.length ∧
        ('"' ∈ text → content.length < read.length + text.length) := by
  match text with
  | [] =>
      right
      exact ⟨read, [], by simp [scan, next, after, begin, isBlank, finish], by simp, by simp⟩
  | c :: rest =>
      by_cases quote : c = '"'
      · subst quote
        match rest with
        | [] =>
            -- the closing quote of the token pairs with the quote of the text
            left
            simp [scan, next, finish]
        | d :: rest =>
            by_cases pair : d = '"'
            · subst pair
              have tail := scan_quoted_shorter (read ++ ['"']) rest
              simp only [List.length_append, List.length_singleton] at tail
              rcases tail with bad | ⟨content, more, tokens, bound, _⟩
              · left
                simpa [scan, next] using bad
              · right
                refine ⟨content, more, by simpa [scan, next] using tokens, ?_, fun _ => ?_⟩ <;>
                  simp only [List.length_cons] <;> omega
            · right
              refine ⟨read, _, by simp [scan, next, pair, after]; rfl, by simp, fun _ => ?_⟩
              simp only [List.length_cons]
              omega
      · have tail := scan_quoted_shorter (read ++ [c]) rest
        simp only [List.length_append, List.length_singleton] at tail
        rcases tail with bad | ⟨content, more, tokens, bound, strict⟩
        · left
          simpa [scan, next, quote] using bad
        · right
          refine ⟨content, more, by simpa [scan, next, quote] using tokens, ?_, fun member => ?_⟩
          · simp only [List.length_cons]; omega
          · have inside : '"' ∈ rest := by simpa [Ne.symm quote] using member
            have shorter := strict inside
            simp only [List.length_cons]; omega

/-- The content of a quoted token is shorter than the text that closes it. -/
theorem scan_quoted_bound (read text : List Char) :
    scan (.quoted read) text = [.illegal] ∨
      ∃ content rest, scan (.quoted read) text = .quoted (String.ofList content) :: rest ∧
        content.length < read.length + text.length := by
  match text with
  | [] => left; rfl
  | c :: rest =>
      by_cases quote : c = '"'
      · subst quote
        match rest with
        | [] => exact .inr ⟨read, [], by simp [scan, next, finish], by simp⟩
        | d :: rest =>
            by_cases pair : d = '"'
            · subst pair
              have tail := scan_quoted_bound (read ++ ['"']) rest
              simp only [List.length_append, List.length_singleton] at tail
              rcases tail with bad | ⟨content, more, tokens, bound⟩
              · left
                simpa [scan, next] using bad
              · right
                refine ⟨content, more, by simpa [scan, next] using tokens, ?_⟩
                simp only [List.length_cons]
                omega
            · exact .inr ⟨read, _, by simp [scan, next, pair, after]; rfl, by simp⟩
      · have tail := scan_quoted_bound (read ++ [c]) rest
        simp only [List.length_append, List.length_singleton] at tail
        rcases tail with bad | ⟨content, more, tokens, bound⟩
        · left
          simpa [scan, next, quote] using bad
        · right
          refine ⟨content, more, by simpa [scan, next, quote] using tokens, ?_⟩
          simp only [List.length_cons]
          omega

/-- The interface takes a C string, so a zero byte ends the text. -/
def cText (text : String) : List Char := text.toList.takeWhile (· ≠ '\x00')

def tokens (text : String) : List Token := scan .between (cText text)

def hasNoZero (text : String) : Bool := text.toList.all (· ≠ '\x00')

theorem cText_append (part rest : String) (plain : hasNoZero part) :
    cText (part ++ rest) = part.toList ++ cText rest := by
  have all : ∀ c ∈ part.toList, decide (c ≠ '\x00') = true := by
    simpa [hasNoZero] using plain
  rw [cText, String.toList_append, List.takeWhile_append_of_pos all]
  rfl

theorem cText_plain (text : String) (plain : hasNoZero text) : cText text = text.toList := by
  have whole := cText_append text "" plain
  simpa [cText] using whole

/-- A zero byte in the text hides what follows. -/
theorem cText_zero (text rest : String) (zero : '\x00' ∈ text.toList) :
    (cText (text ++ rest)).length < text.toList.length := by
  rw [cText, String.toList_append]
  generalize text.toList = whole at zero ⊢
  induction whole with
  | nil => simp at zero
  | cons c chars ih =>
      by_cases here : c = '\x00'
      · simp [here]
      · have inside : '\x00' ∈ chars := by simpa [Ne.symm here] using zero
        simpa [here] using ih inside

theorem tokens_spelled {text : String} {chars : List Char} (spelled : text.toList = chars) :
    tokens text = scan .between (chars.takeWhile (· ≠ '\x00')) := by
  rw [tokens, cText, spelled]

/-- A long text is spelled piece by piece. -/
theorem spelled_append {first second : String} {chars rest : List Char}
    (head : first.toList = chars) (tail : second.toList = rest) :
    (first ++ second).toList = chars ++ rest := by
  rw [String.toList_append, head, tail]

/-- The scanner crosses a part without a zero byte and goes on in the state it has reached. -/
theorem scan_cText_append (state : Scan) (part rest : String) (plain : hasNoZero part) :
    scan state (cText (part ++ rest)) =
      (scanPart state part.toList).1 ++ scan (scanPart state part.toList).2 (cText rest) := by
  rw [cText_append part rest plain, scan_append]

theorem hasNoZero_toString (value : Nat) : hasNoZero (toString value) := by
  simp only [hasNoZero, Nat.toString_eq_repr, Nat.toList_repr, List.all_eq_true, decide_eq_true_eq]
  rintro c member rfl
  exact absurd (Nat.isDigit_of_mem_toDigits (by decide) (by decide) member) (by decide)

/-- A number in the middle of a text is one token. -/
theorem tokens_number (before rest : String) (value : Nat) (plain : hasNoZero before)
    (outer : (scanPart .between before.toList).2 = .between) :
    tokens (before ++ toString value ++ rest) =
      (scanPart .between before.toList).1 ++ scan (.number value) (cText rest) := by
  rw [tokens, String.append_assoc, scan_cText_append _ _ _ plain, outer,
    scan_cText_append _ _ _ (hasNoZero_toString value), Nat.toString_eq_repr, Nat.toList_repr,
    scanPart_toDigits]
  rfl

/-- A number behind a minus is read after it. -/
theorem tokens_negative (before rest : String) (value : Nat) (plain : hasNoZero before)
    (outer : (scanPart .between before.toList).2 = .dash) :
    tokens (before ++ toString value ++ rest) =
      (scanPart .between before.toList).1 ++ .symbol '-' :: scan (.number value) (cText rest) := by
  rw [tokens, String.append_assoc, scan_cText_append _ _ _ plain, outer,
    scan_cText_append _ _ _ (hasNoZero_toString value), Nat.toString_eq_repr, Nat.toList_repr,
    scanPart_dash_toDigits]
  rfl

/-- A text without quotes and zero bytes between two quotes is one token. -/
theorem tokens_quoted (before text rest : String) (plain : hasNoZero before)
    (outer : (scanPart .between before.toList).2 = .quoted [])
    (noQuote : '"' ∉ text.toList) (noZero : hasNoZero text) :
    tokens (before ++ text ++ rest) =
      (scanPart .between before.toList).1 ++ scan (.quoted text.toList) (cText rest) := by
  rw [tokens, String.append_assoc, scan_cText_append _ _ _ plain, outer,
    scan_cText_append _ _ _ noZero, scanPart_quoted _ _ noQuote]
  rfl

end Peakwork.Sql
