import PrintLang.Proofs.Chronicle
import PrintLang.Proofs.Layout
import PrintLang.Proofs.Number.Canonical
import PrintLang.Proofs.Printing

/-!
# Listings determine what they list

The listings of tokens and statements show names, numbers and texts as they are, without any
quoting.  Still, what has been listed can be told from a listing.

For statements this is so because their displays are a prefix code: wherever a display stands, the
text tells where it ends and, but for the spans, which tree it shows.  The code is that of the
displays of expressions, in which every part ends at the first character that it cannot contain: a
number and a name at a bracket or a blank, a text at a quote.  So it does not matter what stands
between quotes.  It does matter that a source text was read, since other trees might have names with
brackets or texts with quotes.

For tokens this is so because of the lines.  A line without a line feed inside ends at its line
feed, and the title of the token's kind at the bracket.

## Main Definitions

* `Script.sectionText` — the text of a listing below its heading
* `Script.listingText` — the text of all listings of a script, with their headings
* `IsPrefixCode` — texts that tell what they stand for and where they end

## Main Statements

* `IsPrefixCode.map_eq` — rows of items with the same text are rows of the same items
* `Tree.isPrefixCode_expression`, `Tree.isPrefixCode_statement` — the displays of trees
* `Script.sections_determine_listed` — both listings determine what they list
-/

namespace PrintLang

/-! ## Listings -/

namespace Script

/-- The text of a listing below its heading: each item is shown on a line of its own. -/
def sectionText {α : Type} (display : α → String) (items : List α) : String :=
  String.join (items.map fun item => display item ++ "\n")

variable {α : Type} (display : α → String)

theorem sectionText_cons (item : α) (items : List α) :
    sectionText display (item :: items) = display item ++ "\n" ++ sectionText display items :=
  String.join_cons

theorem toList_sectionText (items : List α) :
    (sectionText display items).toList =
      items.flatMap fun item => (display item).toList ++ ['\n'] := by
  induction items with
  | nil => rfl
  | cons item items ih =>
    rw [sectionText_cons, String.toList_append, String.toList_append, ih, List.flatMap_cons]
    rfl

theorem toUTF8_sectionText (items : List α) :
    (sectionText display items).toUTF8 = Sink.linesBytes (items.map display) := by
  induction items with
  | nil => rfl
  | cons item items ih =>
    rw [sectionText_cons, List.map_cons, Sink.linesBytes, ← ih, Sink.lineBytes]
    exact String.toByteArray_append

/-- The text of a listing with its heading, if it is requested. -/
def underHeading (requested : Bool) (heading text : String) : String :=
  if requested then heading ++ "\n" ++ text else ""

theorem toUTF8_underHeading (requested : Bool) (heading : String) (items : List α) :
    (underHeading requested heading (sectionText display items)).toUTF8 =
      Sink.linesBytes (listed requested heading display items) := by
  cases requested with
  | false => rfl
  | true =>
    show (heading ++ "\n" ++ sectionText display items).toByteArray =
      Sink.lineBytes heading ++ Sink.linesBytes (items.map display)
    rw [String.toByteArray_append, ← toUTF8_sectionText]
    rfl

/-- The text of all listings of a script that are requested, given its tokens: that of the tokens
and, if they can be read, that of the statements and the line that separates listings from the
output. -/
def listingText (dump : Dump) (tokens : List Token) : String :=
  underHeading dump.tokens "--- Tokens ---" (sectionText Token.display tokens) ++
    match Tree.ofTokens tokens with
    | .error _ => ""
    | .ok statements =>
      underHeading dump.statements "--- AST ---" (sectionText Tree.display statements) ++
        underHeading (dump.tokens || dump.statements) "--- Output ---" ""

section

variable {source : String} {scan : Scan} (scans : Token.scan source = .ok scan) (dump : Dump)
include scans

theorem toUTF8_listingText :
    (listingText dump scan.tokens).toUTF8 = Sink.linesBytes (listing dump source) := by
  have separator (requested : Bool) : (underHeading requested "--- Output ---" "").toUTF8 =
      Sink.linesBytes (listed requested "--- Output ---" (id : String → String) []) :=
    toUTF8_underHeading id requested "--- Output ---" []
  rw [listing, scans, listingText]
  dsimp only
  rw [Sink.linesBytes_append, ← toUTF8_underHeading]
  cases Tree.ofTokens scan.tokens with
  | error fault => exact String.toByteArray_append
  | ok statements =>
    dsimp only
    rw [listedStatements, Sink.linesBytes_append, ← toUTF8_underHeading, ← separator]
    exact String.toByteArray_append.trans (congrArg _ String.toByteArray_append)

/-- The listings are written first, and then what the script writes as a line. -/
theorem written_run :
    (run dump source (.empty none)).session.sink.written =
      (listingText dump scan.tokens).toUTF8 ++
        ((Session.fresh (.empty none)).runLine source).session.sink.written := by
  rw [toUTF8_listingText scans]
  cases accepted : Tree.ofTokens scan.tokens with
  | error fault => exact (agreesWith_of_error scans dump accepted).written_eq
  | ok statements => exact (agreesWith_of_ok scans dump accepted).written_eq

end

end Script

/-! ## Prefix codes -/

/-- Wherever the text of a valid item stands, it tells where it ends, and the key of the item. -/
def IsPrefixCode {α β : Type} (valid : α → Prop) (text : α → List Char) (key : α → β) : Prop :=
  ∀ a b, valid a → valid b → ∀ rest others, text a ++ rest = text b ++ others →
    key a = key b ∧ rest = others

namespace IsPrefixCode

variable {α β : Type} {valid : α → Prop} {text : α → List Char} {key : α → β}

/-- Rows of items with the same text are rows of items with the same keys. -/
theorem map_eq (code : IsPrefixCode valid text key) (nonempty : ∀ a, text a ≠ [])
    {items others : List α} (areValid : ∀ a ∈ items, valid a) (othersValid : ∀ a ∈ others, valid a)
    (same : items.flatMap text = others.flatMap text) : items.map key = others.map key := by
  induction items generalizing others with
  | nil =>
    cases others with
    | nil => rfl
    | cons other others =>
      rw [List.flatMap_nil, List.flatMap_cons] at same
      exact absurd (List.append_eq_nil_iff.mp same.symm).1 (nonempty other)
  | cons item items ih =>
    obtain ⟨isValid, restValid⟩ := List.forall_mem_cons.mp areValid
    cases others with
    | nil =>
      rw [List.flatMap_nil, List.flatMap_cons] at same
      exact absurd (List.append_eq_nil_iff.mp same).1 (nonempty item)
    | cons other others =>
      obtain ⟨otherValid, laterValid⟩ := List.forall_mem_cons.mp othersValid
      rw [List.flatMap_cons, List.flatMap_cons] at same
      obtain ⟨key_eq, rest_eq⟩ := code item other isValid otherValid _ _ same
      rw [List.map_cons, List.map_cons, key_eq, ih restValid laterValid rest_eq]

/-- A character at the end of every text changes nothing. -/
theorem concat (code : IsPrefixCode valid text key) (c : Char) :
    IsPrefixCode valid (fun a => text a ++ [c]) key := by
  intro a b isValid otherValid rest others same
  rw [List.append_assoc, List.append_assoc] at same
  obtain ⟨key_eq, rest_eq⟩ := code a b isValid otherValid _ _ same
  exact ⟨key_eq, List.cons_injective rest_eq⟩

end IsPrefixCode

/-- What stands before the first of certain characters, and what stands behind it. -/
theorem append_cons_inj {front other rest others : List Char} {c : Char} (free : c ∉ front)
    (otherFree : c ∉ other) (same : front ++ c :: rest = other ++ c :: others) :
    front = other ∧ rest = others := by
  induction front generalizing other with
  | nil =>
    cases other with
    | nil => exact ⟨rfl, List.cons_injective same⟩
    | cons first other =>
      exact absurd (List.cons.inj same).1 (List.ne_of_not_mem_cons otherFree)
  | cons first front ih =>
    cases other with
    | nil => exact absurd (List.cons.inj same).1.symm (List.ne_of_not_mem_cons free)
    | cons otherFirst other =>
      obtain ⟨first_eq, rest_eq⟩ := List.cons.inj same
      obtain ⟨front_eq, others_eq⟩ := ih (List.not_mem_of_not_mem_cons free)
        (List.not_mem_of_not_mem_cons otherFree) rest_eq
      exact ⟨by rw [first_eq, front_eq], others_eq⟩

/-- A part of a display ends at a character that it does not contain. -/
theorem part_inj {part other : String} {c : Char} {rest others : List Char}
    (free : c ∉ part.toList) (otherFree : c ∉ other.toList)
    (same : part.toList ++ c :: rest = other.toList ++ c :: others) :
    part = other ∧ rest = others :=
  (append_cons_inj free otherFree same).imp_left String.toList_inj.mp

/-! ## Characters that do not occur -/

theorem notMem_of_isWord {word : List Char} (isWord : IsWord word) {c : Char}
    (other : isWordPart c = false) : c ∉ word := by
  obtain ⟨first, rest, rfl, startsWord, members⟩ := isWord
  intro member
  have isPart : isWordPart c = true := by
    rcases List.mem_cons.mp member with rfl | inRest
    · exact isWordPart_of_isWordStart startsWord
    · exact members c inRest
  exact Bool.false_ne_true (other.symm.trans isPart)

/-- The texts of numbers in displays have digits, a point and a sign, or they are a word. -/
theorem Number.notMem_plainText {x : Float}
    (isNumber : Binary64.rank x ≤ Binary64.infinityRank) : ')' ∉ (plainText x).toList := by
  have inSigned {negative : Bool} {text : String} (free : ')' ∉ text.toList) :
      ')' ∉ (signed negative text).toList := by
    cases negative
    · exact free
    · rw [signed, if_pos rfl, String.toList_append]
      exact List.not_mem_append (by decide) free
  obtain infinite | finite := Nat.eq_or_lt_of_le isNumber
  · rw [plainText, textBy_of_infinite _ infinite]
    exact inSigned (by decide)
  · rw [plainText, textBy_of_finite _ finite]
    obtain ⟨digits, -, text_eq, members, -⟩ := writesRank_text_decimal finite
    refine inSigned fun member => ?_
    rw [text_eq, String.toList_ofList] at member
    exact absurd (members _ member) (by decide)

theorem Number.IsLiteral.rank_le {x : Float} (isLiteral : IsLiteral x) :
    Binary64.rank x ≤ Binary64.infinityRank := by
  obtain ⟨-, size⟩ := isLiteral
  omega

theorem Number.plainText_injective {x y : Float}
    (isNumber : Binary64.rank x ≤ Binary64.infinityRank)
    (otherIsNumber : Binary64.rank y ≤ Binary64.infinityRank)
    (same : plainText x = plainText y) : x = y := by
  have reads := ofNumeral?_plainText isNumber
  rw [same, ofNumeral?_plainText otherIsNumber] at reads
  exact (Option.some.inj reads).symm

/-! ## Displays of trees -/

namespace Tree

/-- The letter with which the display of a tree starts. -/
def initial : Tree → Char
  | assign _ _ _ => 'A'
  | print _ _ => 'P'
  | operation _ _ _ _ => 'B'
  | number _ _ => 'N'
  | text _ _ => 'S'
  | reference _ _ => 'V'

theorem exists_display (tree : Tree) : ∃ rest, tree.display.toList = tree.initial :: rest := by
  cases tree <;> simp only [display, String.toList_append, List.append_assoc] <;> exact ⟨_, rfl⟩

theorem initial_eq {tree other : Tree} {rest others : List Char}
    (same : tree.display.toList ++ rest = other.display.toList ++ others) :
    tree.initial = other.initial := by
  obtain ⟨more, display_eq⟩ := tree.exists_display
  obtain ⟨otherMore, otherDisplay_eq⟩ := other.exists_display
  rw [display_eq, otherDisplay_eq] at same
  exact (List.cons.inj same).1

theorem symbol_inj {operator other : Operator} {rest others : List Char}
    (same : operator.symbol.toList ++ rest = other.symbol.toList ++ others) :
    operator = other ∧ rest = others := by
  have length_eq : operator.symbol.toList.length = other.symbol.toList.length := by
    cases operator <;> cases other <;> rfl
  obtain ⟨symbol_eq, rest_eq⟩ := List.append_inj same length_eq
  refine ⟨?_, rest_eq⟩
  cases operator <;> cases other <;> first | rfl | exact absurd symbol_eq (by decide)

/-- **The displays of expressions are a prefix code.** -/
theorem isPrefixCode_expression :
    IsPrefixCode IsExpression (fun tree => tree.display.toList) bare := by
  intro tree
  induction tree with
  | assign | print => exact fun _ isExpression => isExpression.elim
  | number value span =>
    intro other isLiteral isExpression rest others same
    have letter := initial_eq same
    cases other with
    | number otherValue otherSpan =>
      have isNumber := Number.IsLiteral.rank_le isLiteral
      have otherIsNumber := Number.IsLiteral.rank_le isExpression
      simp only [display, String.toList_append, List.append_assoc] at same
      obtain ⟨text_eq, rest_eq⟩ := part_inj (Number.notMem_plainText isNumber)
        (Number.notMem_plainText otherIsNumber) (List.append_cancel_left same)
      obtain rfl := Number.plainText_injective isNumber otherIsNumber text_eq
      exact ⟨rfl, rest_eq⟩
    | _ => simp [initial] at letter
  | text value span =>
    intro other noQuote isExpression rest others same
    have letter := initial_eq same
    cases other with
    | text otherValue otherSpan =>
      simp only [display, String.toList_append, List.append_assoc] at same
      obtain ⟨rfl, rest_eq⟩ := part_inj noQuote isExpression (List.append_cancel_left same)
      exact ⟨rfl, List.cons_injective rest_eq⟩
    | _ => simp [initial] at letter
  | reference name span =>
    intro other isName isExpression rest others same
    have letter := initial_eq same
    cases other with
    | reference otherName otherSpan =>
      simp only [display, String.toList_append, List.append_assoc] at same
      obtain ⟨rfl, rest_eq⟩ := part_inj (c := ')') (notMem_of_isWord isName.1 (by decide))
        (notMem_of_isWord isExpression.1 (by decide)) (List.append_cancel_left same)
      exact ⟨rfl, rest_eq⟩
    | _ => simp [initial] at letter
  | operation left operator right span ihLeft ihRight =>
    intro other parts isExpression rest others same
    have letter := initial_eq same
    cases other with
    | operation otherLeft otherOperator otherRight otherSpan =>
      obtain ⟨-, isLeft, isRight⟩ := parts
      obtain ⟨-, otherIsLeft, otherIsRight⟩ := isExpression
      simp only [display, String.toList_append, List.append_assoc] at same
      obtain ⟨left_eq, fromSymbol⟩ :=
        ihLeft otherLeft isLeft otherIsLeft _ _ (List.append_cancel_left same)
      obtain ⟨rfl, fromRight⟩ := symbol_inj (List.append_cancel_left fromSymbol)
      obtain ⟨right_eq, fromBracket⟩ :=
        ihRight otherRight isRight otherIsRight _ _ (List.append_cancel_left fromRight)
      exact ⟨congrArg₂ (operation · operator · ⟨0, 0⟩) left_eq right_eq,
        List.append_cancel_left fromBracket⟩
    | _ => simp [initial] at letter

/-- **So are the displays of statements.** -/
theorem isPrefixCode_statement :
    IsPrefixCode IsStatement (fun tree => tree.display.toList) bare := by
  intro tree other isStatement otherIsStatement rest others same
  have letter := initial_eq same
  cases tree with
  | number | text | reference | operation => exact isStatement.elim
  | assign name value span =>
    cases other with
    | assign otherName otherValue otherSpan =>
      simp only [display, String.toList_append, List.append_assoc] at same
      obtain ⟨isName, isValue⟩ := isStatement
      obtain ⟨otherIsName, otherIsValue⟩ := otherIsStatement
      obtain ⟨rfl, fromEquals⟩ := part_inj (c := ' ') (notMem_of_isWord isName.1 (by decide))
        (notMem_of_isWord otherIsName.1 (by decide)) (List.append_cancel_left same)
      have fromValue := List.cons_injective (List.cons_injective fromEquals)
      obtain ⟨value_eq, fromBracket⟩ :=
        isPrefixCode_expression value otherValue isValue otherIsValue _ _ fromValue
      exact ⟨congrArg (assign name · ⟨0, 0⟩) value_eq, List.append_cancel_left fromBracket⟩
    | _ => simp [initial] at letter
  | print value span =>
    cases other with
    | print otherValue otherSpan =>
      simp only [display, String.toList_append, List.append_assoc] at same
      obtain ⟨value_eq, fromBracket⟩ := isPrefixCode_expression value otherValue isStatement
        otherIsStatement _ _ (List.append_cancel_left same)
      exact ⟨congrArg (print · ⟨0, 0⟩) value_eq, List.append_cancel_left fromBracket⟩
    | _ => simp [initial] at letter

end Tree

/-! ## Displays of tokens -/

namespace TokenKind

/-- Titles are different, and no title has a bracket or a line feed. -/
theorem title_inj {kind other : TokenKind} (same : kind.title = other.title) : kind = other := by
  cases kind <;> cases other <;> first | rfl | exact absurd same (by decide)

theorem notMem_title (kind : TokenKind) :
    '(' ∉ kind.title.toList ∧ '\n' ∉ kind.title.toList := by
  cases kind <;> decide

/-- Only texts can have a line feed. -/
theorem Spells.notMem {kind : TokenKind} {slice : List Char} (spells : kind.Spells slice)
    (notText : kind ≠ .text) : '\n' ∉ slice := by
  rcases spells.cases notText with isWord | isDigits | ⟨c, rfl, isSign⟩
  · exact notMem_of_isWord isWord (by decide)
  · exact fun member => absurd (isDigits.2 _ member) (by decide)
  · rw [List.mem_singleton]
    rintro rfl
    cases isSign

end TokenKind

namespace Token

/-- The lines that show tokens without a line feed are a prefix code. -/
theorem isPrefixCode_line :
    IsPrefixCode (fun token => '\n' ∉ token.lexeme.toList)
      (fun token => token.display.toList ++ ['\n']) word := by
  intro token other oneLine otherOneLine rest others same
  have free {token : Token} (oneLine : '\n' ∉ token.lexeme.toList) :
      '\n' ∉ token.display.toList := by
    simp only [display, String.toList_append]
    exact List.not_mem_append (List.not_mem_append (List.not_mem_append token.kind.notMem_title.2
      (by decide)) oneLine) (by decide)
  rw [List.append_assoc, List.append_assoc] at same
  obtain ⟨display_eq, rest_eq⟩ := part_inj (free oneLine) (free otherOneLine) same
  refine ⟨?_, rest_eq⟩
  have lists_eq := congrArg String.toList display_eq
  simp only [display, String.toList_append, List.append_assoc] at lists_eq
  obtain ⟨title_eq, fromQuote⟩ :=
    part_inj token.kind.notMem_title.1 other.kind.notMem_title.1 lists_eq
  have fromLexeme : token.lexeme.toList ++ "')".toList = other.lexeme.toList ++ "')".toList :=
    List.cons_injective fromQuote
  exact Prod.ext (TokenKind.title_inj title_eq)
    (String.toList_inj.mp (List.append_cancel_right fromLexeme))

/-- If no text of a source has a line feed, no token has one. -/
theorem oneLine_of_scan {source : String} {result : Scan} (scans : Token.scan source = .ok result)
    (oneLine : ∀ token ∈ result.tokens, token.kind = .text → '\n' ∉ token.lexeme.toList) :
    ∀ token ∈ result.tokens, '\n' ∉ token.lexeme.toList := by
  obtain ⟨tokens, closing, lexes, -, tokens_eq⟩ := exists_readable_of_scan scans
  intro token member
  by_cases isText : token.kind = .text
  · exact oneLine token member isText
  · rw [tokens_eq] at member
    rcases List.mem_append.mp member with spelled | isLast
    · exact ((isSpelled_iff isText).mp (lexes.isSpelled token spelled)).notMem isText
    · obtain rfl := List.mem_singleton.mp isLast
      exact List.not_mem_nil

end Token

namespace Script

variable {α β : Type} {valid : α → Prop} {display : α → String} {key : α → β}

/-- Listings tell the keys of what they list if the lines are a prefix code, and nothing but the
keys. -/
theorem sectionText_eq_iff
    (code : IsPrefixCode valid (fun item => (display item).toList ++ ['\n']) key)
    (displayKey : β → String) (display_eq : ∀ item, display item = displayKey (key item))
    {items others : List α} (areValid : ∀ item ∈ items, valid item)
    (othersValid : ∀ item ∈ others, valid item) :
    sectionText display items = sectionText display others ↔ items.map key = others.map key := by
  constructor
  · intro same
    rw [← String.toList_inj, toList_sectionText, toList_sectionText] at same
    exact code.map_eq (fun item => List.append_ne_nil_of_right_ne_nil _ (List.cons_ne_nil _ _))
      areValid othersValid same
  · intro same
    have through (row : List α) :
        sectionText display row = sectionText displayKey (row.map key) := by
      rw [sectionText, sectionText, List.map_map]
      exact congrArg (fun line => String.join (row.map line))
        (funext fun item => congrArg (· ++ "\n") (display_eq item))
    rw [through items, through others, same]

/-- **Listings determine what they list.**

The listings of the statements of two source texts have the same text exactly if the statements are
the same but for their spans, whatever stands between quotes.  The listings of the tokens of two
source texts without a line feed between quotes have the same text exactly if the kinds and lexemes
of the tokens are the same.  The listings are what a script writes below the headings, before all
other output. -/
theorem sections_determine_listed (source other : String) :
    (∀ statements others, Reads source statements → Reads other others →
      (sectionText Tree.display statements = sectionText Tree.display others ↔
        statements.map Tree.bare = others.map Tree.bare)) ∧
    (∀ scan otherScan, Token.scan source = .ok scan → Token.scan other = .ok otherScan →
      (∀ token ∈ scan.tokens ++ otherScan.tokens,
        token.kind = .text → '\n' ∉ token.lexeme.toList) →
      (sectionText Token.display scan.tokens = sectionText Token.display otherScan.tokens ↔
        scan.tokens.map Token.word = otherScan.tokens.map Token.word)) ∧
    ∀ scan, Token.scan source = .ok scan → ∀ dump,
      (run dump source (.empty none)).session.sink.written =
        (listingText dump scan.tokens).toUTF8 ++
          ((Session.fresh (.empty none)).runLine source).session.sink.written := by
  refine ⟨?_, ?_, fun scan => written_run⟩
  · intro statements others reads otherReads
    exact sectionText_eq_iff (Tree.isPrefixCode_statement.concat '\n') Tree.display
      (fun tree => (tree.display_relocate .origin).symm) reads.isStatement otherReads.isStatement
  · intro scan otherScan scans otherScans oneLine
    obtain ⟨isFree, otherIsFree⟩ := List.forall_mem_append.mp oneLine
    exact sectionText_eq_iff Token.isPrefixCode_line
      (fun word => word.1.title ++ "('" ++ word.2 ++ "')") (fun _ => rfl)
      (Token.oneLine_of_scan scans isFree) (Token.oneLine_of_scan otherScans otherIsFree)

/-- Two layouts of a statement that prints a bracket: the spans are different, and both listings are
the same. -/
theorem sections_determine_listed_spaces :
    let statements := [Tree.print (.text ")" ⟨6, 9⟩) ⟨0, 10⟩]
    let others := [Tree.print (.text ")" ⟨7, 10⟩) ⟨0, 12⟩]
    let tokens : List Token := [⟨.printWord, "print", ⟨0, 5⟩⟩, ⟨.text, ")", ⟨6, 9⟩⟩,
      ⟨.semicolon, ";", ⟨9, 10⟩⟩, ⟨.endOfInput, "", ⟨9, 10⟩⟩]
    let otherTokens : List Token := [⟨.printWord, "print", ⟨0, 5⟩⟩, ⟨.text, ")", ⟨7, 10⟩⟩,
      ⟨.semicolon, ";", ⟨11, 12⟩⟩, ⟨.endOfInput, "", ⟨11, 12⟩⟩]
    Reads "print \")\";" statements ∧ Reads "print  \")\" ;" others ∧
      Token.scan "print \")\";" = .ok ⟨tokens, none⟩ ∧
      Token.scan "print  \")\" ;" = .ok ⟨otherTokens, none⟩ ∧
      sectionText Tree.display statements = sectionText Tree.display others ∧
      sectionText Token.display tokens = sectionText Token.display otherTokens ∧
      (run ⟨true, true⟩ "print \")\";" (.empty none)).session.sink.written =
        Sink.linesBytes ["--- Tokens ---", "Print('print')", "String(')')",
          "Semicolon(';')", "EndOfInput('')", "--- AST ---", "Print(String(\")\"))",
          "--- Output ---", ")"] := by
  intro statements others tokens otherTokens
  have reads : Reads "print \")\";" statements := ⟨_, rfl, rfl⟩
  have otherReads : Reads "print  \")\" ;" others := ⟨_, rfl, rfl⟩
  have scans : Token.scan "print \")\";" = .ok ⟨tokens, none⟩ := rfl
  have otherScans : Token.scan "print  \")\" ;" = .ok ⟨otherTokens, none⟩ := rfl
  have oneLine : ∀ token ∈ tokens ++ otherTokens,
      token.kind = .text → '\n' ∉ token.lexeme.toList := by decide
  obtain ⟨ofStatements, ofTokens, written⟩ :=
    sections_determine_listed "print \")\";" "print  \")\" ;"
  refine ⟨reads, otherReads, scans, otherScans,
    (ofStatements statements others reads otherReads).mpr rfl,
    (ofTokens _ _ scans otherScans oneLine).mpr rfl, ?_⟩
  rw [written _ scans]
  decide +kernel

end Script

end PrintLang
