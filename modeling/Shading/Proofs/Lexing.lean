import Shading.Proofs.Numerals
import Shading.Token.Lexer

/-!
# Texts that spell tokens

A text spells tokens if the lexer divides it into them wherever it stands, without a report, as long as
what follows does not run into it. Texts that spell tokens can be put one behind the other. Every
symbol, word and number of the language spells its token.
-/

namespace Shading

open List

variable {first character : Char} {token : Token} {name : String}

/-- The tokens of a divided text without their places. -/
def Lexed.kinds (lexed : Lexed) : List Token := lexed.tokens.map LocatedToken.token

namespace Lexer

/-- The text is divided into the tokens without a report, before all that `next` admits. -/
def Spells (next : List Char → Prop) (text : List Char) (tokens : List Token) : Prop :=
  ∀ here rest, next rest →
    (scan 0 here (text ++ rest)).kinds = tokens ++ (scan 0 (here.advanceAll text) rest).kinds ∧
      (scan 0 here (text ++ rest)).diagnostics = (scan 0 (here.advanceAll text) rest).diagnostics

/-- Anything may follow. -/
def Anything (_ : List Char) : Prop := True

/-- What follows continues no word, number or angle bracket. -/
def Stops (rest : List Char) : Prop :=
  ∀ next ∈ rest.head?, continuesWord next = false ∧ next ≠ '='

/-- Nothing stops everything. -/
theorem stops_nil : Stops [] := by simp [Stops]

/-- A character outside words stops what is before it. -/
theorem stops_cons {next : Char} (rest : List Char) (outside : continuesWord next = false := by decide)
    (notEqual : next ≠ '=' := by decide) : Stops (next :: rest) := by
  simp [Stops, outside, notEqual]

/-- What stops a word does not start with an equals sign. -/
theorem Stops.head_ne_equal {rest : List Char} (stops : Stops rest) : rest.head? ≠ some '=' := by
  intro equal
  exact (stops '=' (by simp [equal])).2 rfl

section Composition

variable {next later : List Char → Prop} {text more : List Char} {tokens others : List Token}

/-- No characters spell no tokens. -/
theorem spells_nil : Spells next [] [] := by
  intro here rest _
  simp

/-- Less may follow a text than it admits. -/
theorem Spells.weaken (spells : Spells next text tokens) (admits : ∀ rest, later rest → next rest) :
    Spells later text tokens :=
  fun here rest follows => spells here rest (admits rest follows)

/-- Two texts spell both, if one may follow the other. -/
theorem Spells.append (spells : Spells next text tokens) (behind : Spells later more others)
    (admits : ∀ rest, later rest → next (more ++ rest)) :
    Spells later (text ++ more) (tokens ++ others) := by
  intro here rest follows
  obtain ⟨kinds, reports⟩ := spells here (more ++ rest) (admits rest follows)
  obtain ⟨laterKinds, laterReports⟩ := behind (here.advanceAll text) rest follows
  rw [append_assoc, Position.advanceAll_append]
  exact ⟨by rw [kinds, laterKinds, append_assoc], by rw [reports, laterReports]⟩

/-- Anything may follow such a text. -/
theorem Spells.followedBy (spells : Spells Anything text tokens)
    (behind : Spells later more others) : Spells later (text ++ more) (tokens ++ others) :=
  spells.append behind fun _ _ => trivial

end Composition

/-- The text is divided into the tokens and the end. -/
theorem Spells.tokenize {next : List Char → Prop} {text : String} {tokens : List Token}
    (spells : Spells next text.toList tokens) (atEnd : next []) (name : String) :
    (tokenize ⟨name, text⟩).kinds = tokens ++ [.eof] ∧ (tokenize ⟨name, text⟩).diagnostics = [] := by
  have divided := spells .start [] atEnd
  rw [append_nil] at divided
  exact divided

/-- Characters that belong to a lexeme are passed over. -/
theorem scan_pending (here : Position) (passed rest : List Char) :
    scan passed.length here (passed ++ rest) = scan 0 (here.advanceAll passed) rest := by
  induction passed generalizing here with
  | nil => rfl
  | cons first others ih =>
    rw [length_cons, cons_append, scan, ih, Position.advanceAll_cons]

/-- A text that is the lexeme of a token spells it. -/
theorem spells_lexeme {next : List Char → Prop} {more : List Char}
    (terminated : ∀ rest, next rest → isUnterminated (first :: (more ++ rest)) = false)
    (found : ∀ rest, next rest →
      lexeme first (more ++ rest) = (.token token, (first :: more).length)) :
    Spells next (first :: more) [token] := by
  intro here rest follows
  have divided : scan 0 here (first :: more ++ rest) = Lexeme.prepend (.token token)
      (Span.startingAt here (byteLength ((first :: (more ++ rest)).take (first :: more).length)))
      (scan 0 (here.advanceAll (first :: more)) rest) := by
    rw [cons_append, scan, if_neg (by simp [terminated rest follows]), found rest follows]
    simp only [length_cons, Nat.add_sub_cancel]
    rw [scan_pending, Position.advanceAll_cons]
  rw [divided]
  exact ⟨rfl, rfl⟩

/-- Only a slash starts a comment. -/
theorem isUnterminated_cons (rest : List Char) (noSlash : first ≠ '/') :
    isUnterminated (first :: rest) = false := by
  simp [isUnterminated, startsWith, noSlash.symm]

/-- What does not start with a slash has no comment. -/
theorem comment?_cons (rest : List Char) (noSlash : first ≠ '/') :
    comment? (first :: rest) = none := by
  unfold comment?
  split <;> simp_all

/-- A symbol spells its token unless a longer one begins. -/
theorem spells_symbol (known : symbol? first = some token) (noSlash : first ≠ '/') :
    Spells (fun rest => longOperator? (first :: rest) = none) [first] [token] := by
  have classes : isBlank first = false ∧ startsWord first = false ∧ first.isDigit = false := by
    revert known
    unfold symbol?
    split <;> simp +decide
  refine spells_lexeme (fun rest _ => isUnterminated_cons _ noSlash) fun rest short => ?_
  simp only [nil_append] at short ⊢
  simp [lexeme, classes, comment?_cons rest noSlash, symbol, short, known]

/-- A mark spells its token before everything. -/
theorem spells_mark (first : Char) (known : symbol? first = some token)
    (noSlash : first ≠ '/' := by decide)
    (short : ∀ rest, longOperator? (first :: rest) = none := by exact fun _ => rfl) :
    Spells Anything [first] [token] :=
  (spells_symbol known noSlash).weaken fun rest _ => short rest

/-- An angle bracket does unless an equals sign follows. -/
theorem spells_angle (first : Char) (known : symbol? first = some token)
    (angle : first = '<' ∨ first = '>') :
    Spells (fun rest => rest.head? ≠ some '=') [first] [token] := by
  refine (spells_symbol known (by rcases angle with rfl | rfl <;> decide)).weaken fun rest plain => ?_
  rcases angle with rfl | rfl <;>
  · unfold longOperator?
    split <;> simp_all

/-- A minus sign does unless it starts an arrow. -/
theorem spells_minus : Spells (fun rest => rest.head? ≠ some '>') ['-'] [.minus] := by
  refine (spells_symbol rfl (by decide)).weaken fun rest plain => ?_
  unfold longOperator?
  split <;> simp_all

/-- An exclamation mark does unless an equals sign follows. -/
theorem spells_bang : Spells (fun rest => rest.head? ≠ some '=') ['!'] [.bang] := by
  refine (spells_symbol rfl (by decide)).weaken fun rest plain => ?_
  unfold longOperator?
  split <;> simp_all

/-- A slash spells its token unless it starts a comment. -/
theorem spells_slash :
    Spells (fun rest => rest.head? ≠ some '/' ∧ rest.head? ≠ some '*') ['/'] [.slash] := by
  refine spells_lexeme (fun rest follows => ?_) fun rest follows => ?_
  · cases rest with
    | nil => rfl
    | cons next others =>
      have noStar : next ≠ '*' := by simpa using follows.2
      simp [isUnterminated, startsWith, noStar.symm]
  · have noComment : comment? ('/' :: rest) = none := by
      unfold comment?
      split <;> simp_all
    have short : longOperator? ('/' :: rest) = none := by
      unfold longOperator?
      split <;> simp_all
    simp only [nil_append, lexeme, noComment, symbol, short]
    rfl

/-- An operator of two characters spells its token. -/
theorem spells_long {second : Char}
    (known : ∀ rest, longOperator? (first :: second :: rest) = some token) :
    Spells Anything [first, second] [token] := by
  have classes : first ≠ '/' ∧ isBlank first = false ∧ startsWord first = false ∧
      first.isDigit = false := by
    have here := known []
    revert here
    unfold longOperator?
    split <;> simp_all +decide
  refine spells_lexeme (fun rest _ => isUnterminated_cons _ classes.1) fun rest _ => ?_
  simp [lexeme, classes, comment?_cons _ classes.1, symbol, known]

/-- Blanks in front of a text change nothing. -/
theorem scan_blanks (here : Position) (rest : List Char) :
    scan (rest.takeWhile isBlank).length here rest = scan 0 here rest := by
  cases rest with
  | nil => rfl
  | cons first others =>
    cases blank : isBlank first with
    | false => simp [blank]
    | true =>
      have noSlash : first ≠ '/' := by
        rintro rfl
        simp +decide at blank
      have divided : scan 0 here (first :: others) =
          scan (others.takeWhile isBlank).length (here.advance first) others := by
        rw [scan, if_neg (by simp [isUnterminated_cons _ noSlash])]
        simp [lexeme, blank, Lexeme.prepend]
      rw [takeWhile_cons_of_pos blank, length_cons, divided, scan]

/-- A blank spells nothing. -/
theorem spells_blank {blank : Char} (isOne : isBlank blank) : Spells Anything [blank] [] := by
  intro here rest _
  have noSlash : blank ≠ '/' := by
    rintro rfl
    simp +decide at isOne
  have divided : scan 0 here ([blank] ++ rest) = scan 0 (here.advance blank) rest := by
    rw [singleton_append, scan, if_neg (by simp [isUnterminated_cons _ noSlash])]
    simp only [lexeme, isOne, if_true, takeWhile_cons_of_pos, length_cons,
      Nat.add_sub_cancel, Lexeme.prepend, scan_blanks]
  rw [divided]
  exact ⟨rfl, rfl⟩

/-- Blanks spell nothing. -/
theorem spells_blanks {blanks : List Char} (all : ∀ blank ∈ blanks, isBlank blank) :
    Spells Anything blanks [] := by
  induction blanks with
  | nil => exact spells_nil
  | cons first rest ih =>
    exact (spells_blank (all first (by simp))).followedBy
      (ih fun blank member => all blank (by simp [member]))

/-- An identifier: a letter or underscore, then also digits, and no keyword. -/
structure IsName (name : String) : Prop where
  starts : ∃ first ∈ name.toList.head?, startsWord first
  continues : ∀ character ∈ name.toList, continuesWord character
  notKeyword : Token.ofWord name = .identifier name

/-- What makes a name. -/
theorem isName_iff : IsName name ↔ name.toList.head?.any startsWord = true ∧
    name.toList.all continuesWord = true ∧ Token.ofWord name = .identifier name := by
  rw [Option.any_eq_true, all_eq_true]
  exact ⟨fun ⟨starts, continues, notKeyword⟩ => ⟨starts, continues, notKeyword⟩,
    fun ⟨starts, continues, notKeyword⟩ => ⟨starts, continues, notKeyword⟩⟩

instance (name : String) : Decidable (IsName name) := decidable_of_iff _ isName_iff.symm

/-- Characters that start a word continue one. -/
theorem continuesWord_of_startsWord (starts : startsWord character) : continuesWord character := by
  simp only [startsWord, continuesWord, Char.isAlphanum, Bool.or_eq_true, decide_eq_true_eq] at *
  exact starts.imp .inl id

/-- A slash, a blank or a digit starts no word. -/
theorem startsWord_classes (starts : startsWord character) :
    character ≠ '/' ∧ isBlank character = false ∧ character.isDigit = false := by
  refine ⟨?_, ?_, ?_⟩
  · rintro rfl
    simp +decide at starts
  · rw [Bool.eq_false_iff]
    intro blank
    simp only [isBlank, Bool.or_eq_true, decide_eq_true_eq] at blank
    rcases blank with ((rfl | rfl) | rfl) | rfl <;> simp +decide at starts
  · rw [Bool.eq_false_iff]
    intro digit
    simp only [startsWord, Number.isAlpha_eq_false_of_isDigit digit, Bool.false_or,
      decide_eq_true_eq] at starts
    rw [starts] at digit
    simp +decide at digit

/-- The characters of a word are taken up to where it stops. -/
theorem takeWhile_append_of_stops {word rest : List Char}
    (all : ∀ character ∈ word, continuesWord character) (stops : Stops rest) :
    (word ++ rest).takeWhile continuesWord = word := by
  rw [takeWhile_append_of_pos all]
  cases rest with
  | nil => simp
  | cons next others => simp [(stops next (by simp)).1]

/-- A word spells its keyword or identifier. -/
theorem spells_word {word : String} (starts : ∃ first ∈ word.toList.head?, startsWord first)
    (continues : ∀ character ∈ word.toList, continuesWord character) :
    Spells Stops word.toList [Token.ofWord word] := by
  obtain ⟨first, head, firstStarts⟩ := starts
  obtain ⟨more, text⟩ : ∃ more, word.toList = first :: more := by
    cases characters : word.toList with
    | nil => simp [characters] at head
    | cons character more => exact ⟨more, by simpa [characters] using head⟩
  have classes := startsWord_classes firstStarts
  rw [text]
  refine spells_lexeme (fun rest _ => isUnterminated_cons _ classes.1) fun rest stops => ?_
  have taken : (first :: (more ++ rest)).takeWhile continuesWord = word.toList := by
    rw [← cons_append, ← text]
    exact takeWhile_append_of_stops continues stops
  simp only [lexeme, classes, comment?_cons _ classes.1, firstStarts, taken, Bool.false_eq_true,
    if_false, if_true, String.ofList_toList]
  rw [text]

/-- Whether a fixed text is a word. -/
def isWord (word : String) : Bool :=
  word.toList.head?.any startsWord && word.toList.all continuesWord

/-- A fixed word spells its token. -/
theorem spells_fixed (word : String) (fixed : isWord word) :
    Spells Stops word.toList [Token.ofWord word] := by
  obtain ⟨starts, continues⟩ := Bool.and_eq_true_iff.mp fixed
  obtain ⟨first, head, firstStarts⟩ := (Option.any_eq_true _ _).mp starts
  exact spells_word ⟨first, head, firstStarts⟩ (all_eq_true.mp continues)

/-- A name spells an identifier. -/
theorem spells_name (isName : IsName name) : Spells Stops name.toList [.identifier name] := by
  rw [← isName.notKeyword]
  exact spells_word isName.starts isName.continues

/-- A digit starts only a number. -/
theorem isDigit_classes (digit : character.isDigit) :
    character ≠ '/' ∧ isBlank character = false ∧ startsWord character = false := by
  refine ⟨?_, ?_, ?_⟩
  · rintro rfl
    simp +decide at digit
  · rw [Bool.eq_false_iff]
    intro blank
    simp only [isBlank, Bool.or_eq_true, decide_eq_true_eq] at blank
    rcases blank with ((rfl | rfl) | rfl) | rfl <;> simp +decide at digit
  · rw [Bool.eq_false_iff]
    intro starts
    simp [(startsWord_classes starts).2.2] at digit

/-- Where a word stops, no digit and no letter stands. -/
theorem Stops.classes {rest : List Char} (stops : Stops rest) :
    ∀ next ∈ rest.head?, next.isDigit = false ∧ next ≠ 'e' ∧ next ≠ 'E' := by
  intro next member
  have outside := (stops next member).1
  refine ⟨?_, ?_, ?_⟩
  · simp only [continuesWord, Char.isAlphanum, Bool.or_eq_false_iff] at outside
    exact outside.1.2
  · rintro rfl
    simp +decide at outside
  · rintro rfl
    simp +decide at outside

section Numerals

variable {whole suffix rest : List Char} {kind : Number.Kind}

/-- A suffix goes on to where a word stops. -/
theorem suffix_append (kind : Number.Kind) (stops : Stops rest) :
    exponentLength (kind.suffix ++ rest) = 0 ∧
      (kind.suffix ++ rest).takeWhile continuesWord = kind.suffix ∧
      ∀ next ∈ (kind.suffix ++ rest).head?, next.isDigit = false := by
  have continues : ∀ letter ∈ kind.suffix, continuesWord letter :=
    all_eq_true.mp (by cases kind <;> decide)
  refine ⟨?_, takeWhile_append_of_stops continues stops, ?_⟩
  · cases kind with
    | abstract =>
      cases rest with
      | nil => rfl
      | cons next others =>
        obtain ⟨_, notSmall, notCapital⟩ := stops.classes next (by simp)
        simp [Number.Kind.suffix, exponentLength, notSmall, notCapital]
    | _ => rfl
  · cases kind with
    | abstract => exact fun next member => (stops.classes next member).1
    | _ =>
      rintro _ ⟨⟩
      rfl

/-- A whole number is as long as digits and suffix. -/
theorem numberLength_append (digits : ∀ digit ∈ whole, digit.isDigit) (stops : Stops rest)
    (noPoint : (kind.suffix ++ rest).head? ≠ some '.') :
    numberLength (whole ++ (kind.suffix ++ rest)) = (whole ++ kind.suffix).length := by
  obtain ⟨noExponent, taken, noDigit⟩ := suffix_append kind stops
  have wholeTaken : (whole ++ (kind.suffix ++ rest)).takeWhile Char.isDigit = whole :=
    congrArg Prod.fst (Decimal.spanDigits_append digits noDigit)
  have noFraction : fractionLength (kind.suffix ++ rest) = 0 := by
    unfold fractionLength
    split <;> simp_all
  simp only [numberLength, wholeTaken, drop_left, noFraction, Nat.add_zero, noExponent, taken,
    length_append]

/-- Digits with a suffix spell a number, without one not before a point. -/
theorem spells_natural {value : Nat} (small : value < twoTo 53)
    (known : Number.suffixKind? suffix = some kind)
    (fits : Number.inRange kind (Number.natural value kind).value) :
    Spells (fun rest => Stops rest ∧ (suffix ++ rest).head? ≠ some '.')
      (value.repr.toList ++ suffix) [.number (.natural value kind)] := by
  obtain rfl := Number.eq_suffix known
  have digits : ∀ digit ∈ value.repr.toList, digit.isDigit := fun _ => Decimal.isDigit_of_mem_repr
  let numeral : Numeral := ⟨value.repr.toList, [], none, kind, Decimal.repr_ne_nil value, digits,
    by simp, fun _ => ⟨rfl, rfl⟩⟩
  have text : numeral.text = value.repr.toList ++ kind.suffix := by
    simp [numeral, Numeral.text, Numeral.body, Decimal.fractionText, Decimal.exponentText]
  have size : numeral.written.toBinary64 = (Number.natural value kind).value := by
    simp only [numeral, Numeral.written, append_nil, Decimal.digitsValue_repr]
    exact Decimal.toBinary64_whole small
  have read : Number.read (String.ofList (value.repr.toList ++ kind.suffix)) =
      .ok (.natural value kind) := by
    rw [← text, Numeral.read_text_iff, size]
    exact ⟨fits, rfl⟩
  obtain ⟨first, others, shown⟩ := exists_cons_of_ne_nil (Decimal.repr_ne_nil value)
  rw [shown] at digits read ⊢
  have digit := digits first (by simp)
  obtain ⟨noSlash, noBlank, noWord⟩ := isDigit_classes digit
  rw [cons_append] at read ⊢
  refine spells_lexeme (fun rest _ => isUnterminated_cons _ noSlash) fun rest follows => ?_
  have length := numberLength_append digits follows.1 follows.2
  have taken := @take_left _ (first :: others ++ kind.suffix) rest
  simp only [cons_append, append_assoc] at length taken read ⊢
  simp only [lexeme, noBlank, Bool.false_eq_true, if_false, comment?_cons _ noSlash, noWord, digit,
    if_true]
  rw [length, taken, numberLexeme, read]

end Numerals

end Lexer

end Shading
