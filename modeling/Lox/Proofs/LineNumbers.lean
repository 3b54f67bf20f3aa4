import Mathlib.Data.List.Forall2
import Lox.Proofs.Scanning

/-!
Line numbers: what a scan returns for a segment is on the line that is reached at the end of that
segment, wherever the newlines in front of it stand. So neither the lines of the tokens nor those of
the errors ever go back.
-/

namespace Lox

namespace Segment

/-- A segment of a source, with all of the source in front of it. -/
structure Place where
  before : List Char
  segment : Segment

def Place.upTo (place : Place) : List Char := place.before ++ place.segment.text

def places (before : List Char) : List Segment → List Place
  | [] => []
  | segment :: others => ⟨before, segment⟩ :: places (before ++ segment.text) others

theorem map_segment_places (before : List Char) (segments : List Segment) :
    (places before segments).map Place.segment = segments := by
  induction segments generalizing before with
  | nil => rfl
  | cons segment others ih => rw [places, List.map_cons, ih]

theorem before_of_places {before : List Char} {segments : List Segment} {earlier later : List Place}
    {place : Place} (split : places before segments = earlier ++ place :: later) :
    place.before = before ++ earlier.flatMap (·.segment.text) := by
  induction segments generalizing before earlier with
  | nil => simp [places] at split
  | cons segment others ih =>
    cases earlier with
    | nil =>
      obtain ⟨rfl, -⟩ := List.cons.inj split
      simp
    | cons first earlier =>
      obtain ⟨rfl, rest⟩ := List.cons.inj split
      rw [ih rest, List.flatMap_cons, List.append_assoc]

/-- The token is that of its segment, on the line of the last character of its lexeme. -/
structure TokenAt (token : Token) (place : Place) : Prop where
  segment : token.segment = place.segment
  line : token.line = 1 + place.upTo.count '\n'

/-- How much of the source counts for the line of an error. -/
def Place.blamed (place : Place) (source : List Char) : ScanFault → List Char
  | .unexpected _ => place.before
  | .openString | .openComment => source

structure ErrorAt (source : List Char) (error : ScanError) (place : Place) : Prop where
  fault : place.segment.fault? = some error.fault
  line : error.line = 1 + (place.blamed source error.fault).count '\n'

end Segment

open Segment

theorem Cut.line_after {segment : Segment} {after : List Char} (cut : Cut segment after)
    (before : List Char) :
    segment.lineAfter (1 + before.count '\n') = 1 + (before ++ segment.text).count '\n' := by
  rw [cut.lineAfter_eq, List.count_append, Nat.add_assoc]

namespace Segmentation

variable {after : List Char} {segments : List Segment}

theorem tokens_at (divided : Segmentation after segments) (before : List Char) :
    List.Forall₂ TokenAt (tokens (1 + before.count '\n') segments)
      ((places before segments).filter (·.segment.isToken)) := by
  induction divided generalizing before with
  | nil => exact .nil
  | @cons segment others after cut _ ih =>
    have later := ih (before ++ segment.text)
    rw [tokens_cons, cut.line_after, places, List.filter_cons]
    cases segment with
    | token kind lexeme => exact .cons ⟨by simp [Token.segment], rfl⟩ later
    | _ => exact later

theorem errors_at (divided : Segmentation after segments) (before : List Char) :
    List.Forall₂ (ErrorAt (before ++ after)) (errors (1 + before.count '\n') segments)
      ((places before segments).filter (·.segment.fault?.isSome)) := by
  induction divided generalizing before with
  | nil => exact .nil
  | @cons segment others after cut _ ih =>
    have later := ih (before ++ segment.text)
    have reached := cut.line_after before
    rw [errors_cons, reached, places, List.filter_cons, ← List.append_assoc]
    cases cut with
    | unexpected _ _ _ =>
      -- The counter is not moved for the character, so it stands where the text in front left it.
      exact .cons ⟨rfl, reached.symm⟩ later
    | openString _ => exact .cons ⟨rfl, by simp [Place.blamed]⟩ later
    | openComment _ => exact .cons ⟨rfl, by simp [Place.blamed]⟩ later
    | _ => exact later

end Segmentation

namespace Segment

theorem le_of_mem_lines {line reached : Nat} {segments : List Segment}
    (member : reached ∈ (onLines line segments).map Prod.snd ++ [endLine line segments]) :
    line ≤ reached := by
  induction segments generalizing line with
  | nil => exact Nat.le_of_eq (List.mem_singleton.mp member).symm
  | cons segment others ih =>
    rw [onLines, List.map_cons, List.cons_append] at member
    rcases List.mem_cons.mp member with rfl | later
    · exact segment.le_lineAfter line
    · exact Nat.le_trans (segment.le_lineAfter line) (ih later)

theorem lines_sorted (line : Nat) (segments : List Segment) :
    ((onLines line segments).map Prod.snd ++ [endLine line segments]).Pairwise (· ≤ ·) := by
  induction segments generalizing line with
  | nil => exact List.pairwise_singleton _ _
  | cons segment others ih =>
    rw [onLines, List.map_cons, List.cons_append]
    exact List.pairwise_cons.mpr ⟨fun _ => le_of_mem_lines, ih _⟩

theorem map_filterMap_sublist {α β γ : Type} {f : α → Option β} {g : β → γ} {h : α → γ}
    (same : ∀ a b, f a = some b → g b = h a) (list : List α) :
    ((list.filterMap f).map g).Sublist (list.map h) := by
  induction list with
  | nil => exact .slnil
  | cons a others ih =>
    cases found : f a with
    | none =>
      rw [List.filterMap_cons_none found, List.map_cons]
      exact ih.cons _
    | some b =>
      rw [List.filterMap_cons_some found, List.map_cons, List.map_cons, same a b found]
      exact ih.cons_cons _

theorem lines_of_tokens (line : Nat) (segments : List Segment) :
    ((tokens line segments).map Token.line).Sublist ((onLines line segments).map Prod.snd) :=
  map_filterMap_sublist (fun _ _ found => (token?_eq_some found).2.1) _

theorem lines_of_errors (line : Nat) (segments : List Segment) :
    ((errors line segments).map ScanError.line).Sublist ((onLines line segments).map Prod.snd) := by
  refine map_filterMap_sublist ?_ _
  rintro ⟨segment, reached⟩ error found
  obtain ⟨fault, -, rfl⟩ := Option.map_eq_some_iff.mp found
  rfl

end Segment

/-- The only division of a source, each segment with what stands in front of it. -/
structure PlacesOf (source : List Char) (places : List Place) : Prop where
  divided : Segmentation source (places.map Place.segment)
  before : ∀ earlier place later, places = earlier ++ place :: later →
    place.before = earlier.flatMap (·.segment.text)

theorem placesOf_ofSource (source : List Char) : PlacesOf source (places [] (ofSource source)) where
  divided := by
    rw [map_segment_places]
    exact segmentation_ofSource source
  before _ _ _ split := before_of_places split

/-- Tokens and errors stand one for one at the token segments and at the faulty segments, and their
lines count the newlines up to there. -/
structure LinesExact (source : List Char) (places : List Place) (scan : Scan) : Prop where
  tokens : ∃ tokens, scan.tokens = tokens ++ [Token.eof (1 + source.count '\n')] ∧
    List.Forall₂ TokenAt tokens (places.filter (·.segment.isToken))
  errors : List.Forall₂ (ErrorAt source) scan.errors (places.filter (·.segment.fault?.isSome))
  tokens_sorted : (scan.tokens.map Token.line).Pairwise (· ≤ ·)
  errors_sorted : (scan.errors.map ScanError.line).Pairwise (· ≤ ·)

theorem line_numbers_exact (source : String) :
    ∃ places, PlacesOf source.toList places ∧
      LinesExact source.toList places (scan .tolerant source) := by
  have divided := segmentation_ofSource source.toList
  have sorted := lines_sorted 1 (ofSource source.toList)
  have scanned : scan .tolerant source = _ := Scan.tolerant_eq (ofSource source.toList)
  refine ⟨places [] (ofSource source.toList), placesOf_ofSource source.toList, ?_⟩
  rw [scanned]
  constructor
  · refine ⟨Segment.tokens 1 (ofSource source.toList), ?_, divided.tokens_at []⟩
    rw [endLine_ofSource]
  · exact divided.errors_at []
  · have lines := (lines_of_tokens 1 (ofSource source.toList)).append_right
      [endLine 1 (ofSource source.toList)]
    rw [List.map_append]
    exact sorted.sublist lines
  · exact (List.pairwise_append.mp sorted).1.sublist (lines_of_errors 1 (ofSource source.toList))

-- A newline in a string, one in a block comment, and one behind a line comment.
example : (scan .tolerant "\"a\nb\" /* \n */ x // y\nz").tokens.map Token.line = [2, 3, 4, 4] := by
  decide +kernel

end Lox
