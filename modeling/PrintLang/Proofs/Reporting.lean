import PrintLang.Report
import PrintLang.Proofs.Diagnosis
import PrintLang.Proofs.Footprint
import PrintLang.Proofs.Text.Place

/-!
# Where reports lead

A report tells the line and the column of its fault.  Whoever cuts the source into lines and goes
to this place finds what the fault is about: the character that cannot be used, the name that is not
bound, the token that cannot stand there.

That a fault points at it is known already, by its span.  The span of a fault starts inside the
source, so one place leads to its start, and the text from this place on is the text from the start
of the span on.

## Main Definitions

* `Token.shown` — the characters that a token shows in its source
* `Fault.StandsAt` — what is read at a place, depending on the cause of a fault

## Main Statements

* `Session.located_of_runLine` — a fault is located in the source that was run
* `Fault.PointsAt.standsAt` — what a fault points at is read at the place of its start
* `Report.location_leads_back` — the place in a report is the one that leads to its fault
-/

namespace PrintLang

/-! ## What is read at a place -/

/-- The characters that a token shows, but for the quote that closes a text: the last token of a
source can lack it. -/
def Token.shown (token : Token) : List Char :=
  if token.kind = .text then '"' :: token.lexeme.toList else token.lexeme.toList

/-- What is read at a place if a fault has been found there.  A character that cannot be used and a
name that is not bound are read themselves.  A token that cannot stand where it stands is one of the
source, unless it is the one for the end. -/
def Fault.StandsAt (source : String) (lines : List (List Char)) (place : Location)
    (fault : Fault) : Prop :=
  match fault.cause with
  | .unknownCharacter symbol _ => place.Shows lines [symbol]
  | .undefinedVariable name => place.Shows lines name.toList
  | .unexpectedToken _ _ found lexeme =>
    found ≠ .endOfInput → ∃ scan, Token.scan source = .ok scan ∧
      ⟨found, lexeme, fault.span⟩ ∈ scan.tokens ∧
      place.Shows lines (Token.mk found lexeme fault.span).shown
  | _ => True

/-- A token shows its first characters at its span. -/
theorem Token.Fits.shown_starts {token : Token} {text : List Char} (fits : token.Fits text) :
    token.shown ≠ [] ∧ token.shown <+: token.span.slice text := by
  by_cases isText : token.kind = .text
  · rw [shown, if_pos isText]
    refine ⟨List.cons_ne_nil _ _, ?_⟩
    obtain ⟨-, closed | ⟨opened, -⟩⟩ := fits.quoted isText
    · rw [closed]
      exact List.prefix_append _ _
    · rw [opened]
  · rw [shown, if_neg isText, ← fits.slice_eq isText]
    exact ⟨fits.inside.slice_ne_nil, List.prefix_rfl⟩

/-- What stands at a span is read at the place that leads to its start. -/
theorem Location.LeadsTo.shows {text : List Char} {lines : List (List Char)} {place : Location}
    {span : Span} (leads : place.LeadsTo lines span.start) (cuts : CutsIntoLines text lines)
    {chars : List Char} (nonempty : chars ≠ []) (starts : chars <+: span.slice text) :
    place.Shows lines chars := by
  refine ⟨nonempty, ?_⟩
  rw [leads.textFrom_eq, cuts.flatten_eq]
  exact starts.trans (List.take_prefix _ _)

/-- The tokens of a source, but for the one for its end, fit it. -/
theorem Token.fits_of_mem_scan {source : String} {scan : Scan}
    (scans : Token.scan source = .ok scan) {token : Token} (member : token ∈ scan.tokens)
    (notEnd : token.kind ≠ .endOfInput) : token.Fits source.toList := by
  obtain ⟨last, isEnd, tokens_eq⟩ := Token.exists_eq_beforeEnd_of_scan scans
  rw [tokens_eq, List.mem_append, List.mem_singleton] at member
  rcases member with member | rfl
  · exact (Token.segmentation_of_scan scans).fits token member
  · exact absurd isEnd notEnd

/-- What a fault points at is read at the place that leads to its start. -/
theorem Fault.PointsAt.standsAt {source : String} {environment : Environment} {fault : Fault}
    (points : fault.PointsAt source environment) (inside : fault.span.Inside source.length)
    {lines : List (List Char)} (cuts : CutsIntoLines source.toList lines) {place : Location}
    (leads : place.LeadsTo lines fault.span.start) :
    fault.StandsAt source lines place := by
  unfold PointsAt at points
  unfold StandsAt
  cases cause_eq : fault.cause with
  | unknownCharacter symbol position =>
    rw [cause_eq] at points
    obtain ⟨span_eq, symbol_eq⟩ := points
    have slice_eq : fault.span.slice source.toList = [symbol] := by
      rw [span_eq, Span.slice, Nat.add_sub_cancel_left, List.take_one, List.head?_drop, symbol_eq]
      rfl
    exact leads.shows cuts (List.cons_ne_nil _ _) (by rw [slice_eq])
  | undefinedVariable name =>
    rw [cause_eq] at points
    obtain ⟨name_eq, -⟩ := points
    have nonempty := inside.slice_ne_nil
    rw [name_eq] at nonempty
    exact leads.shows cuts nonempty (by rw [name_eq])
  | unexpectedToken complaint expected found lexeme =>
    rw [cause_eq] at points
    obtain ⟨scan, scans, points⟩ := points
    intro notEnd
    rw [if_neg notEnd] at points
    obtain ⟨nonempty, starts⟩ := (Token.fits_of_mem_scan scans points notEnd).shown_starts
    exact ⟨scan, scans, points, leads.shows cuts nonempty starts⟩
  | invalidOperation | divisionByZero | notAnExpression | outputRefused => trivial

/-! ## Reports -/

/-- A fault of running a source as a line points inside the source, at what it is about. -/
theorem Session.located_of_runLine {session after : Session} {source : String} {fault : Fault}
    (run_eq : session.runLine source = ⟨after, some fault⟩) :
    fault.Located source after.environment := by
  rw [runLine_eq_runBody] at run_eq
  exact Script.located_of_runBody run_eq

/-- **The place in a report leads back to its fault.**

A source that fails, in whatever session it is run, contains the characters at the span of the
fault, so that the fault has a place.  The source is cut into lines in one way.  Of all places, the
one in the report is the only one that leads to the position at which the fault starts, and what the
fault is about is read there. -/
theorem Report.location_leads_back {session after : Session} {source : String} {fault : Fault}
    (stopped : session.runLine source = ⟨after, some fault⟩) (file : Option String) :
    let location := (Report.ofFault source file fault).location
    fault.span.Inside source.length ∧
    ∃ lines, (∀ others, CutsIntoLines source.toList others ↔ others = lines) ∧
      (∀ place : Location, place.LeadsTo lines fault.span.start ↔ place = location) ∧
      fault.StandsAt source lines location := by
  intro location
  obtain ⟨inside, points⟩ := Session.located_of_runLine stopped
  obtain ⟨lines, cuts⟩ := CutsIntoLines.exists_cut source.toList
  have startsInside := Nat.lt_of_lt_of_le inside.start_lt_stop inside.stop_le_length
  have leads := (cuts.leadsTo_iff startsInside).mpr rfl
  refine ⟨inside, lines, fun others => ⟨fun cutsOthers => cutsOthers.unique cuts, ?_⟩,
    fun place => cuts.leadsTo_iff startsInside, points.standsAt inside cuts leads⟩
  rintro rfl
  exact cuts

/-- A name in the fourth line.  A text contains the ends of the first two lines, a pair and a line
separator, and a carriage return ends the third. -/
theorem Report.location_leads_back_fourth_line :
    let lines := ["print \"é\r\n", "→\u2028", "\";\r", "print y;"].map String.toList
    let unbound := Fault.undefinedVariable ⟨21, 22⟩ "y"
    ((Session.fresh (.empty none)).runLine "print \"é\r\n→\u2028\";\rprint y;").fault =
        some unbound ∧
      (Report.ofFault "print \"é\r\n→\u2028\";\rprint y;" none unbound).location = ⟨4, 7⟩ ∧
      CutsIntoLines "print \"é\r\n→\u2028\";\rprint y;".toList lines ∧
      Location.LeadsTo ⟨4, 7⟩ lines 21 ∧ Location.Shows ⟨4, 7⟩ lines ['y'] := by
  intro lines unbound
  have location_eq : (Report.ofFault "print \"é\r\n→\u2028\";\rprint y;" none unbound).location =
      ⟨4, 7⟩ := by decide
  have stopped : (Session.fresh (.empty none)).runLine "print \"é\r\n→\u2028\";\rprint y;" =
      ⟨_, some unbound⟩ := rfl
  obtain ⟨-, found, cuts_iff, leads_iff, stands⟩ := Report.location_leads_back stopped none
  have first (rest : List Char) : Line ("print \"é".toList ++ ['\r', '\n']) rest :=
    .ended (by decide) (by decide) nofun
  have second (rest : List Char) : Line (['→'] ++ ['\u2028']) rest :=
    .ended (by decide) (by decide) nofun
  have third : Line (['"', ';'] ++ ['\r']) "print y;".toList :=
    .ended (by decide) (by decide) (by decide)
  have fourth : Line "print y;".toList [] := .last (by decide) (by decide)
  have cuts : CutsIntoLines "print \"é\r\n→\u2028\";\rprint y;".toList lines :=
    .line (first _) (.line (second _) (.line third (.line fourth .nothing)))
  obtain rfl := (cuts_iff lines).mp cuts
  refine ⟨rfl, location_eq, cuts, ?_, ?_⟩
  · exact (leads_iff _).mpr location_eq.symm
  · rw [location_eq] at stands
    exact stands

end PrintLang
