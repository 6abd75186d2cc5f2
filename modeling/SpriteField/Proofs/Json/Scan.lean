import SpriteField.Proofs.Json.Grammar

/-!
# What a text is cut into

Whatever a token is written as is read as this token, and the rest of the text is left.  Only a
number has to end before something that it could go on with.
-/

namespace SpriteField.Json

/-! ## Strings -/

namespace Piece

theorem hexValue?_of_isHexDigit {c : Char} {n : Nat} (h : IsHexDigit c n) :
    hexValue? c = some n := by
  obtain ⟨hlt, rfl | rfl⟩ := h
  · interval_cases n <;> rfl
  · interval_cases n <;> rfl

theorem ofEscape?_of_mem {c d : Char} (h : (c, d) ∈ escapes) : ofEscape? c = some (.char d) := by
  simp only [escapes, List.mem_cons, List.not_mem_nil, or_false, Prod.mk.injEq] at h
  rcases h with ⟨rfl, rfl⟩ | ⟨rfl, rfl⟩ | ⟨rfl, rfl⟩ | ⟨rfl, rfl⟩ | ⟨rfl, rfl⟩ | ⟨rfl, rfl⟩ |
    ⟨rfl, rfl⟩ | ⟨rfl, rfl⟩ <;> rfl

/-- A high surrogate and a low one are the units of one character, and a unit that is no surrogate
is a character by itself. -/
theorem utf16_cases (c : Char) :
    (∃ u, utf16 c = [u] ∧ isHighSurrogate u = false ∧ isLowSurrogate u = false ∧
        c = Char.ofNat u) ∨
      ∃ high low, utf16 c = [high, low] ∧ isHighSurrogate high = true ∧
        isLowSurrogate low = true ∧
        c = Char.ofNat (0x10000 + (high - 0xd800) * 0x400 + (low - 0xdc00)) := by
  have hvalid : c.toNat < 0xd800 ∨ 0xdfff < c.toNat ∧ c.toNat < 0x110000 := c.valid
  rw [utf16]
  split
  next hlt =>
    refine Or.inl ⟨c.toNat, rfl, ?_, ?_, c.ofNat_toNat.symm⟩
    · simp only [isHighSurrogate, Bool.and_eq_false_iff, decide_eq_false_iff_not]
      omega
    · simp only [isLowSurrogate, Bool.and_eq_false_iff, decide_eq_false_iff_not]
      omega
  next hge =>
    refine Or.inr ⟨_, _, rfl, ?_, ?_, ?_⟩
    · simp only [isHighSurrogate, Bool.and_eq_true, decide_eq_true_eq]
      omega
    · simp only [isLowSurrogate, Bool.and_eq_true, decide_eq_true_eq]
      omega
    · have hcode : 0x10000 + (0xd800 + (c.toNat - 0x10000) / 0x400 - 0xd800) * 0x400 +
          (0xdc00 + (c.toNat - 0x10000) % 0x400 - 0xdc00) = c.toNat := by omega
      rw [hcode, c.ofNat_toNat]

theorem decode?_unit {u : Nat} (hhigh : isHighSurrogate u = false)
    (hlow : isLowSurrogate u = false) (pieces : List Piece) :
    decode? (.unit u :: pieces) = (decode? pieces).map (Char.ofNat u :: ·) := by
  cases pieces with
  | nil => simp [decode?, hhigh, hlow]
  | cons piece pieces => cases piece <;> simp [decode?, hhigh, hlow]

theorem decode?_of_denotes {pieces : List Piece} {cs : List Char} (h : Denotes pieces cs) :
    decode? pieces = some cs := by
  induction h with
  | nil => rfl
  | char c h ih => rw [decode?, ih, Option.map_some]
  | units c h ih =>
    rcases utf16_cases c with ⟨u, hutf16, hhigh, hlow, hc⟩ | ⟨high, low, hutf16, hhigh, hlow, hc⟩
    · rw [hutf16, List.map_singleton, List.singleton_append, decode?_unit hhigh hlow, ih,
        Option.map_some, ← hc]
    · rw [hutf16, List.map_cons, List.map_singleton, List.cons_append, List.singleton_append,
        decode?, if_pos hhigh, if_pos hlow, ih, Option.map_some, ← hc]

theorem toNat_ofNat {n : Nat} (h : n < 0xd800 ∨ 0xdfff < n ∧ n < 0x110000) :
    (Char.ofNat n).toNat = n := by
  have hvalid : n.isValidChar := h
  rw [Char.ofNat, dif_pos hvalid]
  rfl

theorem Denotes.unit {pieces : List Piece} {cs : List Char} (h : Denotes pieces cs) {u : Nat}
    (hu : u < 0x10000) (hhigh : isHighSurrogate u = false) (hlow : isLowSurrogate u = false) :
    Denotes (.unit u :: pieces) (Char.ofNat u :: cs) := by
  have hcode : (Char.ofNat u).toNat = u := by
    simp only [isHighSurrogate, isLowSurrogate, Bool.and_eq_false_iff,
      decide_eq_false_iff_not] at hhigh hlow
    exact toNat_ofNat (by omega)
  have hunits := Denotes.units (Char.ofNat u) h
  rwa [utf16, hcode, if_pos hu] at hunits

theorem Denotes.pair {pieces : List Piece} {cs : List Char} (h : Denotes pieces cs)
    {high low : Nat} (hhigh : isHighSurrogate high = true) (hlow : isLowSurrogate low = true) :
    Denotes (.unit high :: .unit low :: pieces)
      (Char.ofNat (0x10000 + (high - 0xd800) * 0x400 + (low - 0xdc00)) :: cs) := by
  simp only [isHighSurrogate, isLowSurrogate, Bool.and_eq_true, decide_eq_true_eq] at hhigh hlow
  obtain ⟨code, hcode⟩ :
      ∃ code, code = 0x10000 + (high - 0xd800) * 0x400 + (low - 0xdc00) := ⟨_, rfl⟩
  have htoNat : (Char.ofNat code).toNat = code := toNat_ofNat (by omega)
  have hunits := Denotes.units (Char.ofNat code) h
  have hhigh' : 0xd800 + (code - 0x10000) / 0x400 = high := by omega
  have hlow' : 0xdc00 + (code - 0x10000) % 0x400 = low := by omega
  rw [utf16, htoNat, if_neg (by omega), hhigh', hlow'] at hunits
  rwa [hcode] at hunits

theorem denotes_of_decode? {pieces : List Piece} {cs : List Char}
    (hfits : ∀ u, .unit u ∈ pieces → u < 0x10000) (h : decode? pieces = some cs) :
    Denotes pieces cs := by
  fun_induction decode? pieces generalizing cs with
  | case1 =>
    cases h
    exact .nil
  | case2 c pieces ih =>
    obtain ⟨cs, hcs, rfl⟩ := Option.map_eq_some_iff.mp h
    exact .char c (ih (fun u hu => hfits u (List.mem_cons_of_mem _ hu)) hcs)
  | case3 high low pieces hhigh hlow code =>
    rename_i ih
    obtain ⟨cs, hcs, rfl⟩ := Option.map_eq_some_iff.mp h
    have hrest := ih (fun u hu => hfits u (List.mem_cons_of_mem _ (List.mem_cons_of_mem _ hu))) hcs
    exact hrest.pair hhigh hlow
  | case4 | case5 | case7 => cases h
  | case6 u low pieces hhigh hlow ih =>
    obtain ⟨cs, hcs, rfl⟩ := Option.map_eq_some_iff.mp h
    have hrest := ih (fun u hu => hfits u (List.mem_cons_of_mem _ hu)) hcs
    exact hrest.unit (hfits u List.mem_cons_self) (Bool.eq_false_iff.mpr hhigh)
      (Bool.eq_false_iff.mpr hlow)
  | case8 u pieces hpieces hsurrogate ih =>
    obtain ⟨cs, hcs, rfl⟩ := Option.map_eq_some_iff.mp h
    have hrest := ih (fun u hu => hfits u (List.mem_cons_of_mem _ hu)) hcs
    rw [Bool.not_eq_true, Bool.or_eq_false_iff] at hsurrogate
    exact hrest.unit (hfits u List.mem_cons_self) hsurrogate.1 hsurrogate.2

theorem unit_lt_of_written {chars : List Char} {u : Nat} (h : Written chars (.unit u)) :
    u < 0x10000 := by
  cases h with
  | unit ha hb hc hd =>
    have := ha.1
    have := hb.1
    have := hc.1
    have := hd.1
    omega

/-- The text that is read from the pieces is the one that they make up. -/
theorem map_decode?_eq_some_iff {pieces : List Piece}
    (hfits : ∀ u, .unit u ∈ pieces → u < 0x10000) (s : String) :
    (decode? pieces).map String.ofList = some s ↔ Denotes pieces s.toList := by
  rw [Option.map_eq_some_iff]
  constructor
  · rintro ⟨cs, hcs, rfl⟩
    rw [String.toList_ofList]
    exact denotes_of_decode? hfits hcs
  · intro h
    exact ⟨s.toList, decode?_of_denotes h, String.ofList_toList⟩

end Piece

theorem scanString_written {chars : List Char} {piece : Piece} (h : Piece.Written chars piece)
    (pieces : List Piece) (cs : List Char) :
    scanString pieces (chars ++ cs) = scanString (piece :: pieces) cs := by
  cases h with
  | @plain c hc =>
    simp only [isPlain, Bool.and_eq_true, bne_iff_ne, ne_eq, Bool.not_eq_true',
      decide_eq_false_iff_not] at hc
    obtain ⟨⟨hquote, hslash⟩, hcontrol⟩ := hc
    rw [List.singleton_append]
    conv_lhs => unfold scanString
    -- All but the last pattern are for the end, a quote or a backslash.
    split
    next heq => cases heq
    next heq => exact absurd (List.cons.inj heq).1 hquote
    next heq => exact absurd (List.cons.inj heq).1 hslash
    next heq => exact absurd (List.cons.inj heq).1 hslash
    next heq =>
      cases heq
      rw [if_neg hcontrol]
  | @escape c d hescape =>
    have hu : c ≠ 'u' := by
      rintro rfl
      simp [escapes] at hescape
    simp only [List.cons_append, List.nil_append]
    rw [scanString, Piece.ofEscape?_of_mem hescape]
    intro a b c' d' rest heq
    exact absurd heq hu
  | @unit a b c d i j k l ha hb hc hd =>
    have hhex : Piece.ofHex? a b c d =
        some (.unit (i * 0x1000 + j * 0x100 + k * 0x10 + l)) := by
      have hvalue : i * 0x1000 + j * 0x100 + k * 0x10 + l = ((i * 16 + j) * 16 + k) * 16 + l := by
        omega
      simp [Piece.ofHex?, Piece.hexValue?_of_isHexDigit ha, Piece.hexValue?_of_isHexDigit hb,
        Piece.hexValue?_of_isHexDigit hc, Piece.hexValue?_of_isHexDigit hd, hvalue]
    simp only [List.cons_append, List.nil_append]
    rw [scanString, hhex]

theorem scanString_parts {parts : List (List Char × Piece)}
    (h : ∀ part ∈ parts, Piece.Written part.1 part.2) (pieces : List Piece) (cs : List Char) :
    scanString pieces (parts.flatMap (·.1) ++ '"' :: cs) =
      some (pieces.reverse ++ parts.map (·.2), cs) := by
  induction parts generalizing pieces with
  | nil => simp [scanString]
  | cons part parts ih =>
    rw [List.flatMap_cons, List.append_assoc, scanString_written (h part List.mem_cons_self),
      ih fun part hpart => h part (List.mem_cons_of_mem _ hpart)]
    simp

theorem scanToken_literal {chars : List Char} {text : Option String} (h : Literal chars text)
    (rest : List Char) : scanToken (chars ++ rest) = some (.string text, rest) := by
  cases h with
  | @quoted parts _ hparts htext =>
    have hfits : ∀ u, .unit u ∈ parts.map (·.2) → u < 0x10000 := by
      intro u hu
      obtain ⟨part, hpart, hunit⟩ := List.mem_map.mp hu
      exact Piece.unit_lt_of_written (hunit ▸ hparts part hpart)
    have hdecode : (Piece.decode? (parts.map (·.2))).map String.ofList = text :=
      Option.ext fun s => (Piece.map_decode?_eq_some_iff hfits s).trans (htext s).symm
    rw [← hdecode, List.cons_append, List.append_assoc]
    change (scanString [] (parts.flatMap (·.1) ++ '"' :: rest)).map _ = _
    rw [scanString_parts hparts]
    rfl

/-! ## Numbers -/

/-- A character that a number can go on with. -/
def extendsNumber (c : Char) : Bool :=
  c.isDigit || c = '.' || c = 'e' || c = 'E'

theorem digitsValue_toDigits (n : Nat) : digitsValue (Nat.toDigits 10 n) = n := by
  have hvalue : digitsValue (Nat.toDigits 10 n) = Nat.ofDigitChars 10 (Nat.toDigits 10 n) 0 := by
    rw [digitsValue, Nat.ofDigitChars]
    simp only [Nat.mul_comm]
  rw [hvalue, Nat.ofDigitChars_toDigits (by decide) (by decide)]

theorem toDigits_ne_nil (n : Nat) : Nat.toDigits 10 n ≠ [] := by
  rw [Nat.toDigits_eq_if (by omega)]
  split <;> simp

theorem isDigit_of_mem_toDigits {n : Nat} {c : Char} (h : c ∈ Nat.toDigits 10 n) :
    c.isDigit = true :=
  Nat.isDigit_of_mem_toDigits (by omega) (by omega) h

theorem isDigits_toDigits (n : Nat) : isDigits (Nat.toDigits 10 n) = true := by
  rw [isDigits, Bool.and_eq_true, Bool.not_eq_true', List.isEmpty_eq_false_iff, List.all_eq_true]
  exact ⟨toDigits_ne_nil n, fun _ => isDigit_of_mem_toDigits⟩

theorem head?_toDigits_ne {n : Nat} (hn : 0 < n) : (Nat.toDigits 10 n).head? ≠ some '0' := by
  induction n using Nat.strongRecOn with
  | ind n ih =>
    rw [Nat.toDigits_eq_if (by omega)]
    split
    next hlt =>
      interval_cases n <;> decide
    next hge =>
      rw [List.head?_append_of_ne_nil _ (toDigits_ne_nil _)]
      exact ih (n / 10) (by omega) (by omega)

theorem not_leading_zero (n : Nat) :
    ¬((Nat.toDigits 10 n).head? = some '0' ∧ 1 < (Nat.toDigits 10 n).length) := by
  rintro ⟨hhead, hlength⟩
  cases n with
  | zero => simp at hlength
  | succ n => exact head?_toDigits_ne (Nat.succ_pos n) hhead

theorem scanDigits_append {digits cs : List Char} (hdigits : isDigits digits = true)
    (hcs : cs.head?.any Char.isDigit = false) :
    scanDigits (digits ++ cs) = some (digits, cs) := by
  rw [isDigits, Bool.and_eq_true, Bool.not_eq_true', List.all_eq_true] at hdigits
  obtain ⟨hne, hall⟩ := hdigits
  have hspan : (digits ++ cs).span Char.isDigit = (digits, cs) := by
    rw [List.span_eq_takeWhile_dropWhile, List.takeWhile_append_of_pos hall,
      List.dropWhile_append_of_pos hall]
    cases cs with
    | nil => simp
    | cons c cs =>
      have hc : c.isDigit = false := by simpa using hcs
      simp [hc]
  unfold scanDigits
  rw [hspan]
  simp [hne]

/-- The digits of an exponent start behind its sign. -/
theorem scanExponent_cons {mark : Char} {sign digits : List Char} (hmark : mark ∈ ['e', 'E'])
    (hsign : sign ∈ [[], ['+'], ['-']]) (hdigits : isDigits digits = true) (rest : List Char) :
    scanExponent (mark :: (sign ++ (digits ++ rest))) =
      (scanDigits (digits ++ rest)).map fun (_, rest) => (true, rest) := by
  have hmark' : mark = 'e' ∨ mark = 'E' := by simpa using hmark
  simp only [List.mem_cons, List.not_mem_nil, or_false] at hsign
  unfold scanExponent
  dsimp only
  rw [if_pos hmark']
  rcases hsign with rfl | rfl | rfl
  · cases digits with
    | nil => cases hdigits
    | cons digit digits =>
      have hdigit : digit.isDigit = true := by
        simp only [isDigits, List.all_cons, Bool.and_eq_true] at hdigits
        exact hdigits.2.1
      rw [List.nil_append, List.cons_append]
      split
      next heq =>
        cases heq
        cases hdigit
      next heq =>
        cases heq
        cases hdigit
      next => rfl
  · rfl
  · rfl

section Ends

variable {rest : List Char} (hrest : rest.head?.any extendsNumber = false)
include hrest

theorem isDigit_head?_of_ends : rest.head?.any Char.isDigit = false := by
  cases rest with
  | nil => rfl
  | cons c rest =>
    simp only [List.head?_cons, Option.any_some, extendsNumber, Bool.or_eq_false_iff] at hrest
    exact hrest.1.1.1

theorem scanExponent_absent : scanExponent rest = some (false, rest) := by
  unfold scanExponent
  split
  next c rest =>
    have hc : ¬(c = 'e' ∨ c = 'E') := by
      rintro (rfl | rfl) <;> simp [extendsNumber] at hrest
    exact if_neg hc
  next => rfl

theorem scanExponent_append {exponent : List Char} (h : Exponent exponent) :
    scanExponent (exponent ++ rest) = some (!exponent.isEmpty, rest) := by
  cases h with
  | absent => exact scanExponent_absent hrest
  | @digits mark sign digits hmark hsign hdigits =>
    rw [List.cons_append, List.append_assoc, scanExponent_cons hmark hsign hdigits,
      scanDigits_append hdigits (isDigit_head?_of_ends hrest)]
    rfl

/-- Behind the fraction comes the exponent or the end, so its digits end there. -/
theorem isDigit_head?_exponent {exponent : List Char} (h : Exponent exponent) :
    (exponent ++ rest).head?.any Char.isDigit = false := by
  cases h with
  | absent => exact isDigit_head?_of_ends hrest
  | digits hmark =>
    simp only [List.mem_cons, List.not_mem_nil, or_false] at hmark
    rcases hmark with rfl | rfl <;> rfl

theorem scanFraction_append {fraction exponent : List Char} (hfraction : Fraction fraction)
    (hexponent : Exponent exponent) :
    scanFraction (fraction ++ (exponent ++ rest)) =
      some (!fraction.isEmpty, exponent ++ rest) := by
  cases hfraction with
  | absent =>
    cases hexponent with
    | absent =>
      simp only [List.nil_append]
      unfold scanFraction
      split
      next => simp [extendsNumber] at hrest
      next => rfl
    | digits hmark =>
      simp only [List.mem_cons, List.not_mem_nil, or_false] at hmark
      rcases hmark with rfl | rfl <;> rfl
  | digits hdigits =>
    have hscan := scanDigits_append hdigits (isDigit_head?_exponent hrest hexponent)
    rw [List.cons_append, scanFraction, hscan]
    rfl

theorem scanUnsigned_append (n : Nat) {fraction exponent : List Char}
    (hfraction : Fraction fraction) (hexponent : Exponent exponent) :
    scanUnsigned (Nat.toDigits 10 n ++ (fraction ++ (exponent ++ rest))) =
      some (if fraction ++ exponent = [] then some n else none, rest) := by
  have hdigits : scanDigits (Nat.toDigits 10 n ++ (fraction ++ (exponent ++ rest))) =
      some (Nat.toDigits 10 n, fraction ++ (exponent ++ rest)) := by
    apply scanDigits_append (isDigits_toDigits n)
    cases hfraction with
    | absent => exact isDigit_head?_exponent hrest hexponent
    | digits => rfl
  unfold scanUnsigned
  rw [hdigits]
  simp only [Option.bind_eq_bind, Option.bind_some]
  rw [if_neg (not_leading_zero n), scanFraction_append hrest hfraction hexponent,
    Option.bind_some, scanExponent_append hrest hexponent, Option.bind_some, digitsValue_toDigits]
  cases fraction <;> cases exponent <;> simp

end Ends

/-- What starts with a digit is read as a number without a sign. -/
theorem scanToken_of_isDigit {c : Char} (h : c.isDigit = true) (cs : List Char) :
    scanToken (c :: cs) =
      (scanUnsigned (c :: cs)).map fun (value, rest) => (.number value, rest) := by
  have hnumber : scanNumber (c :: cs) = scanUnsigned (c :: cs) := by
    unfold scanNumber
    split
    next heq =>
      cases heq
      cases h
    next => rfl
  unfold scanToken
  split
  case h_11 => rw [hnumber]
  -- Every other pattern starts with a character that is no digit.
  all_goals
    next heq =>
      cases heq
      cases h

/-! ## Tokens -/

def markToken? : Char → Option Token
  | '\x7b' => some .openBrace
  | '\x7d' => some .closeBrace
  | '[' => some .openBracket
  | ']' => some .closeBracket
  | ':' => some .colon
  | ',' => some .comma
  | _ => none

/-- The characters are read as the token, and what is written behind them is left. -/
def Scans (chars : List Char) (token : Token) (rest : List Char) : Prop :=
  ∃ c more, chars = c :: more ∧ isBlank c = false ∧ scanToken (chars ++ rest) = some (token, rest)

theorem scans_mark {c : Char} {token : Token} (h : markToken? c = some token)
    (rest : List Char) : Scans [c] token rest := by
  unfold markToken? at h
  split at h
  case h_7 => cases h
  all_goals
    cases h
    exact ⟨_, _, rfl, rfl, rfl⟩

theorem scans_literal {chars : List Char} {text : Option String} (h : Literal chars text)
    (rest : List Char) : Scans chars (.string text) rest := by
  have hscan := scanToken_literal h rest
  cases h with
  | quoted => exact ⟨'"', _, rfl, rfl, hscan⟩

theorem isBlank_of_isDigit {c : Char} (h : c.isDigit = true) : isBlank c = false := by
  rw [Bool.eq_false_iff]
  intro hblank
  simp only [isBlank, Bool.or_eq_true, decide_eq_true_eq] at hblank
  rcases hblank with ((rfl | rfl) | rfl) | rfl <;> cases h

theorem scans_unsigned {n : Nat} {fraction exponent rest : List Char}
    (hfraction : Fraction fraction) (hexponent : Exponent exponent)
    (hrest : rest.head?.any extendsNumber = false) :
    Scans (Nat.toDigits 10 n ++ fraction ++ exponent)
      (.number (if fraction ++ exponent = [] then some n else none)) rest := by
  obtain ⟨c, more, hdigits⟩ := List.exists_cons_of_ne_nil (toDigits_ne_nil n)
  have hc : c.isDigit = true := isDigit_of_mem_toDigits (hdigits ▸ List.mem_cons_self)
  have hscan := scanUnsigned_append hrest n hfraction hexponent
  rw [hdigits] at hscan ⊢
  refine ⟨c, more ++ fraction ++ exponent, rfl, isBlank_of_isDigit hc, ?_⟩
  simp only [List.cons_append, List.append_assoc] at hscan ⊢
  rw [scanToken_of_isDigit hc, hscan]
  rfl

theorem scans_numeral {chars rest : List Char} {value : Option Nat} (h : Numeral chars value)
    (hrest : rest.head?.any extendsNumber = false) : Scans chars (.number value) rest := by
  cases h with
  | plain n =>
    have hscans := scans_unsigned (n := n) .absent .absent hrest
    rwa [List.append_nil, List.append_nil] at hscans
  | scaled n hfraction hexponent hne =>
    have hscans := scans_unsigned (n := n) hfraction hexponent hrest
    rwa [if_neg hne] at hscans
  | negative n hfraction hexponent =>
    refine ⟨'-', _, rfl, rfl, ?_⟩
    have hscan := scanUnsigned_append hrest n hfraction hexponent
    rw [List.cons_append, List.append_assoc, List.append_assoc]
    change (scanNumber ('-' :: _)).map _ = _
    rw [scanNumber, hscan]
    rfl

/-- The rest of a text is cut into the tokens, whatever has been read before. -/
def Cuts (chars : List Char) (tokens : List Token) : Prop :=
  ∀ (earlier : List Token) (fuel : Nat), chars.length ≤ fuel →
    scanTokens earlier fuel chars = some (earlier.reverse ++ tokens)

theorem cuts_nil : Cuts [] [] := by
  intro earlier fuel _
  rw [List.append_nil]
  cases fuel <;> rfl

theorem Cuts.blank {chars : List Char} {tokens : List Token} (h : Cuts chars tokens) {c : Char}
    (hc : isBlank c = true) : Cuts (c :: chars) tokens := by
  intro earlier fuel hfuel
  cases fuel with
  | zero => cases hfuel
  | succ fuel =>
    rw [scanTokens, if_pos hc]
    exact h earlier fuel (Nat.le_of_succ_le_succ hfuel)

theorem Cuts.blanks {chars : List Char} {tokens : List Token} (h : Cuts chars tokens)
    {gap : List Char} (hgap : gap.all isBlank = true) : Cuts (gap ++ chars) tokens := by
  induction gap with
  | nil => exact h
  | cons c gap ih =>
    obtain ⟨hc, hgap⟩ := Bool.and_eq_true_iff.mp hgap
    exact (ih hgap).blank hc

theorem Cuts.token {rest : List Char} {tokens : List Token} (h : Cuts rest tokens)
    {chars : List Char} {token : Token} (hscans : Scans chars token rest) :
    Cuts (chars ++ rest) (token :: tokens) := by
  intro earlier fuel hfuel
  obtain ⟨c, more, rfl, hblank, hscan⟩ := hscans
  rw [List.cons_append] at hfuel hscan ⊢
  cases fuel with
  | zero => cases hfuel
  | succ fuel =>
    rw [List.length_cons, List.length_append] at hfuel
    rw [scanTokens, hblank, hscan]
    simp only [Bool.false_eq_true, if_false]
    rw [h (token :: earlier) fuel (by omega), List.reverse_cons, List.append_assoc]
    rfl

theorem Cuts.tokens? {text : String} {tokens : List Token} (h : Cuts text.toList tokens) :
    tokens? text = some tokens := by
  unfold Json.tokens?
  rw [h [] text.length String.length_toList.le]
  rfl

end SpriteField.Json
