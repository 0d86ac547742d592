import Inqutum.JsTextProofs

/-!
# Plain-text sanitising

`sanitizePlainText` strips control and direction characters, then markup
until nothing is left to strip, then normalises white space.  The markup
loop is a recursion on a fuel of one more than the length of the text;
every round that changes the text shortens it, so the fuel is never the
reason it stops (`stripMarkup_stable`).

Unicode normalisation is a parameter.
-/

namespace ContentSafety

/-- `CONTROL_CHARS`: controls other than tab and line breaks, zero-width
    characters and the byte order mark. -/
def isControl (c : Char) : Bool :=
  let n := c.toNat
  decide (n ≤ 0x08) || n == 0x0B || n == 0x0C
    || decide (0x0E ≤ n ∧ n ≤ 0x1F) || decide (0x7F ≤ n ∧ n ≤ 0x9F)
    || decide (0x200B ≤ n ∧ n ≤ 0x200D) || n == 0x2060 || n == 0xFEFF

/-- `BIDI_CONTROLS`. -/
def isBidiControl (c : Char) : Bool :=
  let n := c.toNat
  n == 0x061C || n == 0x200E || n == 0x200F
    || decide (0x202A ≤ n ∧ n ≤ 0x202E) || decide (0x2066 ≤ n ∧ n ≤ 0x2069)

/-! ## Markup -/

/-- `text.replace(HTML_COMMENT, '')`; the flag says that the scan is inside a
    comment. -/
def stripComments : Bool → List Char → List Char
  | _, [] => []
  | false, '<' :: '!' :: '-' :: '-' :: rest => stripComments true rest
  | false, c :: rest => c :: stripComments false rest
  | true, '-' :: '-' :: '>' :: rest => stripComments false rest
  | true, _ :: rest => stripComments true rest

/-- What may follow `<` in a tag. -/
def opensTag (c : Char) : Bool :=
  ('a' ≤ c && c ≤ 'z') || ('A' ≤ c && c ≤ 'Z')
    || c == '/' || c == '!' || c == '?'

/-- `text.replace(HTML_TAG, '')`; the flag says that the scan is inside a
    tag. -/
def stripTags : Bool → List Char → List Char
  | _, [] => []
  | false, ['<'] => ['<']
  | false, '<' :: c :: rest =>
    if opensTag c then stripTags true rest
    else '<' :: stripTags false (c :: rest)
  | false, c :: rest => c :: stripTags false rest
  | true, '>' :: rest => stripTags false rest
  | true, _ :: rest => stripTags true rest

/-- One round of the loop. -/
def stripRound (cs : List Char) : List Char :=
  stripTags false (stripComments false cs)

def stripLoop : Nat → List Char → List Char
  | 0, cs => cs
  | fuel + 1, cs =>
    if stripRound cs = cs then cs else stripLoop fuel (stripRound cs)

def stripMarkup (cs : List Char) : List Char := stripLoop (cs.length + 1) cs

/-! ## White space -/

/-- `replace(/\r\n?/g, '\n')`. -/
def unifyBreaks : List Char → List Char
  | [] => []
  | '\r' :: '\n' :: rest => '\n' :: unifyBreaks rest
  | '\r' :: rest => '\n' :: unifyBreaks rest
  | c :: rest => c :: unifyBreaks rest

/-- Replace every run of the characters `p` by one space. -/
def collapse (p : Char → Bool) : List Char → List Char
  | [] => []
  | c :: rest =>
    if p c then
      match rest with
      | [] => [' ']
      | d :: _ => if p d then collapse p rest else ' ' :: collapse p rest
    else c :: collapse p rest

/-- `replace(/\n{3,}/g, '\n\n')`; the number counts the breaks just kept. -/
def limitBreaks : Nat → List Char → List Char
  | _, [] => []
  | n, c :: rest =>
    if c = '\n' then
      if n < 2 then c :: limitBreaks (n + 1) rest else limitBreaks n rest
    else c :: limitBreaks 0 rest

def tidy (multiline : Bool) (cs : List Char) : List Char :=
  if multiline then
    limitBreaks 0 (collapse (fun c => c == ' ' || c == '\t') (unifyBreaks cs))
  else collapse JsText.isSpace cs

def sanitizePlainText (normalize : String → String) (multiline : Bool) (input : String) : String :=
  let visible := (normalize input).toList.filter (fun c => !isControl c && !isBidiControl c)
  JsText.trim (String.ofList (tidy multiline (stripMarkup visible)))

/-! ## The markup loop ends on its own -/

theorem stripComments_sublist (inside : Bool) (cs : List Char) :
    (stripComments inside cs).Sublist cs := by
  fun_induction stripComments inside cs with
  | case1 => exact List.Sublist.refl []
  | case2 rest ih => exact ((((ih.cons '-').cons '-').cons '!').cons '<')
  | case3 c rest _ ih => exact ih.cons_cons c
  | case4 rest ih => exact (((ih.cons '>').cons '-').cons '-')
  | case5 c rest _ ih => exact ih.cons c

theorem stripTags_sublist (inside : Bool) (cs : List Char) : (stripTags inside cs).Sublist cs := by
  fun_induction stripTags inside cs with
  | case1 => exact List.Sublist.refl []
  | case2 => exact List.Sublist.refl ['<']
  | case3 c rest _ ih => exact (ih.cons c).cons '<'
  | case4 c rest _ ih => exact ih.cons_cons '<'
  | case5 c rest _ _ ih => exact ih.cons_cons c
  | case6 rest ih => exact ih.cons '>'
  | case7 c rest _ ih => exact ih.cons c

theorem stripRound_sublist (cs : List Char) : (stripRound cs).Sublist cs :=
  (stripTags_sublist false _).trans (stripComments_sublist false cs)

theorem stripLoop_stable (fuel : Nat) (cs : List Char) (h : cs.length < fuel) :
    stripRound (stripLoop fuel cs) = stripLoop fuel cs := by
  induction fuel generalizing cs with
  | zero => exact absurd h (Nat.not_lt_zero _)
  | succ fuel ih =>
    rw [stripLoop]
    by_cases hstable : stripRound cs = cs
    · rw [if_pos hstable]
      exact hstable
    rw [if_neg hstable]
    refine ih (stripRound cs) ?_
    -- a round that changes the text drops at least one character
    have hle := (stripRound_sublist cs).length_le
    have hne : (stripRound cs).length ≠ cs.length := fun heq =>
      hstable ((stripRound_sublist cs).eq_of_length heq)
    omega

/-- **THE LOOP REACHES ITS FIXED POINT**: another round would change
    nothing. -/
theorem stripMarkup_stable (cs : List Char) : stripRound (stripMarkup cs) = stripMarkup cs :=
  stripLoop_stable (cs.length + 1) cs (Nat.lt_succ_self _)

-- a tag that forms when an inner one is stripped goes too
example : sanitizePlainText id false "a <<b>script> \t b" = "a b" := by
  decide

end ContentSafety
