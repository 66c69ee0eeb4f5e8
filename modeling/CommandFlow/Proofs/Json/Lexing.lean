/-
The tokens of a written value.

Every value has its tokens, and they are what is read from its text in either form.  Blanks stand
only between tokens, and a string is spelled so that it ends where it is meant to.  A number is
followed by a comma, a bracket or a blank, so it ends there too.
-/
import CommandFlow.Proofs.Json.NumberText

namespace CommandFlow.Json

open Literal (Stops)

mutual

/-- The tokens of a value. -/
def tokens : Json → List Token
  | .null => [.null]
  | .bool b => [.bool b]
  | .number n => [(literal? n).elim .null .number]
  | .string s => [.string (some s)]
  | .array [] => [.openArray, .closeArray]
  | .array (item :: rest) => .openArray :: (tokens item ++ (itemsTokens rest ++ [.closeArray]))
  | .object [] => [.openObject, .closeObject]
  | .object ((key, value) :: rest) =>
    .openObject :: .string (some key) :: .colon ::
      (tokens value ++ (entriesTokens rest ++ [.closeObject]))

/-- The tokens of further items of an array. -/
def itemsTokens : List Json → List Token
  | [] => []
  | item :: rest => .comma :: (tokens item ++ itemsTokens rest)

/-- The tokens of further entries of an object. -/
def entriesTokens : List (String × Json) → List Token
  | [] => []
  | (key, value) :: rest =>
    .comma :: .string (some key) :: .colon :: (tokens value ++ entriesTokens rest)

end

namespace Token

/-! ### One token -/

theorem lexFrom_skip (sofar : List Token) (skip : Nat) (cs : List Char) :
    lexFrom sofar skip cs = lexFrom sofar 0 (cs.drop skip) := by
  induction skip generalizing cs with
  | zero => rw [List.drop_zero]
  | succ skip ih =>
      cases cs with
      | nil => simp [lexFrom]
      | cons c cs => rw [lexFrom, ih, List.drop_succ_cons]

/-- A token is read where it stands, and reading goes on behind it. -/
theorem lexFrom_token {sofar : List Token} {token : Token} {c : Char} {cs rest : List Char}
    (hc : isBlank c = false) (hscan : scan (c :: cs ++ rest) = some (token, (c :: cs).length)) :
    lexFrom sofar 0 (c :: cs ++ rest) = lexFrom (token :: sofar) 0 rest := by
  rw [List.cons_append] at hscan ⊢
  rw [lexFrom, hc, hscan]
  dsimp only
  rw [if_neg (by decide), lexFrom_skip, List.length_cons, Nat.add_sub_cancel, List.drop_left]

theorem lexFrom_mark {sofar : List Token} {token : Token} {c : Char} {rest : List Char}
    (hc : isBlank c = false) (hscan : ∀ cs, scan (c :: cs) = some (token, 1)) :
    lexFrom sofar 0 (c :: rest) = lexFrom (token :: sofar) 0 rest :=
  lexFrom_token hc (hscan ([] ++ rest))

theorem lexFrom_blanks {sofar : List Token} {cs rest : List Char}
    (hcs : ∀ c ∈ cs, isBlank c = true) : lexFrom sofar 0 (cs ++ rest) = lexFrom sofar 0 rest := by
  induction cs with
  | nil => rfl
  | cons c cs ih =>
      rw [List.cons_append, lexFrom, if_pos (hcs c List.mem_cons_self)]
      exact ih fun c hc => hcs c (List.mem_cons_of_mem _ hc)

theorem lexFrom_newline {sofar : List Token} (form : Form) (level : Nat) {rest : List Char} :
    lexFrom sofar 0 (form.newline level ++ rest) = lexFrom sofar 0 rest := by
  refine lexFrom_blanks ?_
  intro c hc
  cases form with
  | compact => exact absurd hc (by simp [Form.newline])
  | indented =>
      rcases List.mem_cons.1 hc with rfl | hc
      · rfl
      · rw [(List.mem_replicate.1 hc).2]
        rfl

theorem lexFrom_colon {sofar : List Token} (form : Form) {rest : List Char} :
    lexFrom sofar 0 (form.colon ++ rest) = lexFrom (.colon :: sofar) 0 rest := by
  cases form with
  | compact => exact lexFrom_mark rfl fun _ => rfl
  | indented => exact lexFrom_mark rfl fun _ => rfl

/-! ### Strings -/

theorem hexDigit?_digitChar {n : Nat} (hn : n < 16) : hexDigit? (Nat.digitChar n) = some n := by
  have hall : ∀ n : Fin 16, hexDigit? (Nat.digitChar n) = some n.val := by decide
  exact hall ⟨n, hn⟩

theorem hexUnit?_control {n : Nat} (hn : n < 0x20) :
    hexUnit? '0' '0' (Nat.digitChar (n / 16)) (Nat.digitChar (n % 16)) = some n := by
  have hzero : hexDigit? '0' = some 0 := rfl
  have hvalue : ((0 * 16 + 0) * 16 + n / 16) * 16 + n % 16 = n := by omega
  unfold hexUnit?
  rw [hzero, hexDigit?_digitChar (by omega), hexDigit?_digitChar (by omega)]
  exact congrArg some hvalue

/-- A character is spelled inside a string so that it is read as it is. -/
theorem scanString_escapedChar (done : List Char) (count : Nat) (c : Char) (rest : List Char) :
    scanString ⟨done, true, none⟩ count (escapedChar c ++ rest)
      = scanString ⟨c :: done, true, none⟩ (count + (escapedChar c).length) rest := by
  unfold escapedChar
  split
  case h_8 hquote hslash _ _ _ _ _ =>
    -- A control character is spelled by its number; any other one stands for itself.
    by_cases hcontrol : c.toNat < 0x20
    · have hlead : isLeading c.toNat = false := by
        simp [isLeading]
        omega
      have htrail : isTrailing c.toNat = false := by
        simp [isTrailing]
        omega
      have hpush : Spelled.pushUnit ⟨done, true, none⟩ c.toNat = ⟨c :: done, true, none⟩ := by
        simp [Spelled.pushUnit, hlead, htrail, Spelled.push]
      rw [if_pos hcontrol]
      simp only [List.cons_append, List.nil_append, scanString, hexUnit?_control hcontrol, hpush]
      rfl
    · rw [if_neg hcontrol, List.singleton_append, scanString]
      · rw [if_neg (by simpa [hcontrol] using hslash)]
        rfl
      all_goals simp_all
  all_goals rfl

theorem scanString_flatMap (done : List Char) (count : Nat) (cs rest : List Char) :
    scanString ⟨done, true, none⟩ count (cs.flatMap escapedChar ++ '"' :: rest)
      = some (.string (some (String.ofList (done.reverse ++ cs))),
          count + (cs.flatMap escapedChar).length + 1) := by
  induction cs generalizing done count with
  | nil => simp [scanString, Spelled.text?]
  | cons c cs ih =>
      rw [List.flatMap_cons, List.append_assoc, scanString_escapedChar, ih]
      simp [Nat.add_assoc]

theorem lexFrom_stringText {sofar : List Token} (s : String) {rest : List Char} :
    lexFrom sofar 0 (stringText s ++ rest) = lexFrom (.string (some s) :: sofar) 0 rest := by
  refine lexFrom_token rfl ?_
  show scanString {} 1 (s.toList.flatMap escapedChar ++ ['"'] ++ rest) = _
  rw [List.append_assoc, List.singleton_append]
  refine (scanString_flatMap [] 1 s.toList rest).trans ?_
  simp [Nat.add_comm]

/-! ### Numbers -/

theorem exists_text_eq {l : Literal} (hl : l.WellFormed) :
    ∃ c cs, l.text = c :: cs ∧ (c = '-' ∨ c.isDigit = true) := by
  obtain ⟨d, ds, hds⟩ := List.exists_cons_of_ne_nil hl.integer_ne
  have hdigit := hl.integer_digits d (by rw [hds]; exact List.mem_cons_self)
  unfold Literal.text
  rw [hds]
  cases l.negative with
  | true => exact ⟨'-', _, rfl, Or.inl rfl⟩
  | false => exact ⟨d, _, rfl, Or.inr hdigit⟩

theorem isBlank_of_numeral {c : Char} (hc : c = '-' ∨ c.isDigit = true) : isBlank c = false := by
  rw [Bool.eq_false_iff]
  intro hblank
  simp only [isBlank, Bool.or_eq_true, beq_iff_eq] at hblank
  rcases hblank with ((rfl | rfl) | rfl) | rfl <;> exact absurd hc (by decide)

theorem scan_of_numeral {c : Char} (hc : c = '-' ∨ c.isDigit = true) (cs : List Char) :
    scan (c :: cs) = scanNumber (c :: cs) := by
  unfold scan
  split
  case h_11 => rfl
  all_goals
    rename_i heq
    obtain ⟨rfl, -⟩ := List.cons.inj heq
    exact absurd hc (by decide)

theorem lexFrom_numberText {sofar : List Token} (n : Number) {rest : List Char}
    (hrest : Stops rest) :
    lexFrom sofar 0 (numberText n ++ rest)
      = lexFrom ((literal? n).elim .null .number :: sofar) 0 rest := by
  rw [numberText_eq]
  cases hl : literal? n with
  | none => exact lexFrom_token rfl rfl
  | some l =>
      have hwell := (literal?_spec hl).1
      have hscan := scanNumber_text hwell hrest
      obtain ⟨c, cs, htext, hc⟩ := exists_text_eq hwell
      show lexFrom sofar 0 (l.text ++ rest) = lexFrom (.number l :: sofar) 0 rest
      rw [htext] at hscan ⊢
      exact lexFrom_token (isBlank_of_numeral hc) ((scan_of_numeral hc _).trans hscan)

/-! ### Whole values -/

theorem stops_cons {c : Char} (hc : c ∈ [',', ']', '\x7d', '\n']) (rest : List Char) :
    Stops (c :: rest) := by
  intro c' hc'
  obtain rfl : c = c' := Option.some.inj hc'
  simp only [List.mem_cons, List.not_mem_nil, or_false] at hc
  rcases hc with rfl | rfl | rfl | rfl <;> decide

theorem stops_newline (form : Form) (level : Nat) {c : Char} (hc : c ∈ [']', '\x7d'])
    (rest : List Char) : Stops (form.newline level ++ c :: rest) := by
  cases form with
  | compact =>
      refine stops_cons ?_ rest
      simp only [List.mem_cons, List.not_mem_nil, or_false] at hc ⊢
      tauto
  | indented => exact stops_cons (by decide) _

theorem stops_itemsText (form : Form) (level : Nat) (items : List Json) {rest : List Char}
    (hrest : Stops rest) : Stops (itemsText form level items ++ rest) := by
  cases items with
  | nil => exact hrest
  | cons item items => exact stops_cons (by decide) _

theorem stops_entriesText (form : Form) (level : Nat) (entries : List (String × Json))
    {rest : List Char} (hrest : Stops rest) : Stops (entriesText form level entries ++ rest) := by
  cases entries with
  | nil => exact hrest
  | cons entry entries => exact stops_cons (by decide) _

end Token

open Token

mutual

/-- The tokens of a value are read from its text, whatever stands around it. -/
theorem lexFrom_textAt (form : Form) (level : Nat) :
    ∀ (json : Json) (sofar : List Token) (rest : List Char), Stops rest →
      lexFrom sofar 0 (textAt form level json ++ rest)
        = lexFrom ((tokens json).reverse ++ sofar) 0 rest
  | .null, _, _, _ => lexFrom_token rfl rfl
  | .bool true, _, _, _ => lexFrom_token rfl rfl
  | .bool false, _, _, _ => lexFrom_token rfl rfl
  | .number n, _, _, hrest => lexFrom_numberText n hrest
  | .string s, _, _, _ => lexFrom_stringText s
  | .array [], sofar, rest, _ => by
      show lexFrom sofar 0 ('[' :: ']' :: rest) = _
      rw [lexFrom_mark rfl fun _ => rfl, lexFrom_mark rfl fun _ => rfl]
      rfl
  | .array (item :: items), sofar, rest, _ => by
      have hclose := stops_newline form level (c := ']') (by decide) rest
      rw [textAt, tokens, List.cons_append, lexFrom_mark rfl fun _ => rfl]
      simp only [List.append_assoc, List.singleton_append]
      rw [lexFrom_newline, lexFrom_textAt form (level + 1) item _ _
        (stops_itemsText form _ items hclose), lexFrom_itemsText form (level + 1) items _ _ hclose,
        lexFrom_newline, lexFrom_mark rfl fun _ => rfl]
      simp
  | .object [], sofar, rest, _ => by
      show lexFrom sofar 0 ('\x7b' :: '\x7d' :: rest) = _
      rw [lexFrom_mark rfl fun _ => rfl, lexFrom_mark rfl fun _ => rfl]
      rfl
  | .object ((key, value) :: entries), sofar, rest, _ => by
      have hclose := stops_newline form level (c := '\x7d') (by decide) rest
      rw [textAt, tokens, List.cons_append, lexFrom_mark rfl fun _ => rfl]
      simp only [List.append_assoc, List.singleton_append]
      rw [lexFrom_newline, lexFrom_stringText, lexFrom_colon,
        lexFrom_textAt form (level + 1) value _ _ (stops_entriesText form _ entries hclose),
        lexFrom_entriesText form (level + 1) entries _ _ hclose, lexFrom_newline,
        lexFrom_mark rfl fun _ => rfl]
      simp

theorem lexFrom_itemsText (form : Form) (level : Nat) :
    ∀ (items : List Json) (sofar : List Token) (rest : List Char), Stops rest →
      lexFrom sofar 0 (itemsText form level items ++ rest)
        = lexFrom ((itemsTokens items).reverse ++ sofar) 0 rest
  | [], _, _, _ => rfl
  | item :: items, sofar, rest, hrest => by
      rw [itemsText, itemsTokens, List.cons_append, lexFrom_mark rfl fun _ => rfl]
      simp only [List.append_assoc]
      rw [lexFrom_newline, lexFrom_textAt form level item _ _ (stops_itemsText form _ items hrest),
        lexFrom_itemsText form level items _ _ hrest]
      simp

theorem lexFrom_entriesText (form : Form) (level : Nat) :
    ∀ (entries : List (String × Json)) (sofar : List Token) (rest : List Char), Stops rest →
      lexFrom sofar 0 (entriesText form level entries ++ rest)
        = lexFrom ((entriesTokens entries).reverse ++ sofar) 0 rest
  | [], _, _, _ => rfl
  | (key, value) :: entries, sofar, rest, hrest => by
      rw [entriesText, entriesTokens, List.cons_append, lexFrom_mark rfl fun _ => rfl]
      simp only [List.append_assoc]
      rw [lexFrom_newline, lexFrom_stringText, lexFrom_colon,
        lexFrom_textAt form level value _ _ (stops_entriesText form _ entries hrest),
        lexFrom_entriesText form level entries _ _ hrest]
      simp

end

/-- **The text of a value has the tokens of the value.** -/
theorem lex_text (form : Form) (json : Json) : lex (json.text form) = json.tokens := by
  have hstops : Stops [] := by
    intro c hc
    exact absurd hc (by simp)
  have hlex := lexFrom_textAt form 0 json [] [] hstops
  rw [List.append_nil, List.append_nil] at hlex
  rw [lex, toList_text, hlex, lexFrom, List.reverse_reverse]

end CommandFlow.Json
