import Mathlib.Logic.Relation
import TripleTable.Proofs.Sparql.Tidying
import TripleTable.Translation
set_option autoImplicit false

/-!
Removal of comments from any text, read as a query or not. What is left has no comment and no blank
to drop, so that a second removal changes nothing; and what a comment says leaves no trace in it.
-/
namespace TripleTable.Sparql

namespace Place

-- Where the scan stands once it has passed a text.
def after (place : Place) (s : Text) : Place := s.foldl (fun place c => (place.step c).1) place

-- Only quotes open strings, and a quote is no blank.
def Solid : Place → Prop
  | quoted quote => isBlank quote = false
  | _ => True

-- The place from which the kept characters are scanned again: there are no comments among them.
def kept : Place → Place
  | comment => plain
  | place => place

section
variable {place next : Place} {c : Char} {keeps : Bool}

-- A step outside comments keeps its character, the line feed behind a comment is kept too, and all
-- other steps drop it.
theorem step_cases (read : place.step c = (next, keeps)) :
    (place ≠ comment ∧ next ≠ comment ∧ keeps = true) ∨
    (place = comment ∧ c = '\n' ∧ next = plain ∧ keeps = true) ∨
    (place.kept = plain ∧ next = comment ∧ keeps = false) := by
  cases place with
  | plain => grind [step, kept]
  | iri => grind [step, kept]
  | quoted quote => grind [step, kept]
  | comment => grind [step, kept]

theorem kept_outside (outside : place ≠ comment) : place.kept = place := by
  cases place with
  | comment => exact absurd rfl outside
  | _ => rfl

theorem solid_step (solid : place.Solid) (read : place.step c = (next, keeps)) : next.Solid := by
  cases place with
  | plain =>
    by_cases mark : c = '"' ∨ c = '\''
    · have quote := quote_not_blank mark
      grind [step, Solid]
    · grind [step, Solid]
  | iri => grind [step, Solid]
  | quoted quote => grind [step, Solid]
  | comment => grind [step, Solid]

theorem step_blank (blank : isBlank c) : step c plain = (plain, true) := by
  have opens := blank_opens_none blank
  simp only [List.mem_cons, List.not_mem_nil, not_or, or_false] at opens
  simp [step, opens]

-- A blank in front of a line feed makes no difference: both end an IRI, and neither ends a string.
theorem step_pad (solid : place.Solid) (pad : isPad c) (read : place.step c = (next, true)) :
    next.step '\n' = place.step '\n' := by
  obtain ⟨blank, other⟩ := Bool.and_eq_true_iff.mp pad
  cases place with
  | plain =>
    cases (step_blank blank).symm.trans read
    rfl
  | iri =>
    have ends : step c iri = (plain, true) := by simp [step, blank]
    cases ends.symm.trans read
    decide
  | quoted quote =>
    have apart : c ≠ quote := by
      rintro rfl
      rw [solid] at blank
      cases blank
    have stays : step c (quoted quote) = (quoted quote, true) := by simp [step, apart]
    cases stays.symm.trans read
    rfl
  | comment =>
    have stays : step c comment = (comment, false) := by simpa [step] using other
    cases stays.symm.trans read

end
end Place

/-! ### A second removal -/

-- The scan of the text drops none of its characters.
inductive Kept : Place → Text → Prop
  | nil {place} : Kept place []
  | cons {place next c s} (read : place.step c = (next, true)) (rest : Kept next s) :
    Kept place (c :: s)

section
variable {place : Place} {s rest : Text}

theorem Kept.same (kept : Kept place s) : dropComments place s = s := by
  induction kept with
  | nil => rfl
  | cons read rest ih => simp [dropComments, read, ih]

theorem dropped_kept (s : Text) (place : Place) : Kept place.kept (dropComments place s) := by
  induction s generalizing place with
  | nil => exact .nil
  | cons c s ih =>
    obtain ⟨⟨next, keeps⟩, read⟩ : ∃ step, place.step c = step := ⟨_, rfl⟩
    have behind := ih next
    simp only [dropComments, read]
    rcases Place.step_cases read with ⟨here, there, rfl⟩ | ⟨rfl, rfl, rfl, rfl⟩ | ⟨here, rfl, rfl⟩
    · rw [Place.kept_outside here]
      rw [Place.kept_outside there] at behind
      exact .cons read behind
    · -- The comment is over, and what is left of it begins with this line feed.
      exact .cons rfl behind
    · rw [here]
      exact behind

theorem Kept.front (kept : Kept place (s ++ rest)) : Kept place s := by
  induction s generalizing place with
  | nil => exact .nil
  | cons c s ih =>
    cases kept with
    | cons read behind => exact .cons read (ih behind)

theorem Kept.started (kept : Kept .plain s) : Kept .plain (Text.trimStart s) := by
  induction s with
  | nil => exact kept
  | cons c s ih =>
    by_cases blank : isBlank c
    · have shorter : Text.trimStart (c :: s) = Text.trimStart s := by simp [Text.trimStart, blank]
      rw [shorter]
      cases kept with
      | cons read behind =>
        cases (Place.step_blank blank).symm.trans read
        exact ih behind
    · rwa [mark_starts (by simpa using blank)]

theorem Kept.ended (kept : Kept place s) : Kept place (Text.trimEnd s) := by
  obtain ⟨blanks, split⟩ := List.rdropWhile_prefix isBlank s
  rw [← split] at kept
  exact kept.front

theorem Kept.unpadded (kept : Kept place s) (solid : place.Solid) : Kept place (Text.unpad s) := by
  induction kept with
  | nil => exact .nil
  | @cons place next c s read rest ih =>
    have behind := ih (Place.solid_step solid read)
    rw [Text.unpad]
    split
    · -- The line feed behind the blank leads to the same place without it.
      rename_i drops
      obtain ⟨more, feed⟩ := List.head?_eq_some_iff.mp (Text.unpad_head.mpr drops.2)
      rw [feed] at behind ⊢
      cases behind with
      | cons ends later => exact .cons ((Place.step_pad solid drops.1 read).symm.trans ends) later
    · exact .cons read behind

end

theorem stripped_kept (t : Text) : Kept .plain (stripComments t) := by
  rw [stripComments, tidy_lines]
  exact ((dropped_kept t .plain).unpadded trivial).ended.started

theorem tidied_twice (s : Text) : tidyLines (tidyLines s) = tidyLines s := by
  have whole : tidyLines s = Text.trim (Text.unpad s) := by rw [tidy_lines, Text.trim_ends]
  have unpadded : Text.unpad (Text.trim (Text.unpad s)) = Text.trim (Text.unpad s) :=
    Text.unpad_same.mpr ((Text.unpad_unpadded s).part (Text.trim_part _))
  rw [whole, tidy_lines, unpadded, Text.trim_end_trimmed, Text.trim_start_trimmed]

-- Whatever is stripped of its comments has none left and no blank too many, and is translated as
-- the text that it came from.
theorem stripping_settles (t : Text) :
    stripComments (stripComments t) = stripComments t ∧
      translate (stripComments t) = translate t := by
  have settled : stripComments (stripComments t) = stripComments t := by
    conv_lhs => rw [stripComments, (stripped_kept t).same]
    rw [stripComments, tidied_twice]
  exact ⟨settled, by rw [translate, planQuery, settled, translate, planQuery]⟩

-- The blank that ends the IRI goes with the comment behind it, and the line feed ends it then.
example : stripComments "<a \t#b'\r\n 'c # d" = ("<a\n 'c # d" : Text) := by decide +kernel

/-! ### What comments say -/

-- A text and the same text with a comment more: at the end of a line or of the text, where the scan
-- is outside comments, IRIs and strings.
inductive Annotated : Text → Text → Prop
  | line {front note rest} (outside : Place.plain.after front = .plain) (whole : '\n' ∉ note) :
    Annotated (front ++ '\n' :: rest) (front ++ '#' :: (note ++ '\n' :: rest))
  | last {front note} (outside : Place.plain.after front = .plain) (whole : '\n' ∉ note) :
    Annotated front (front ++ '#' :: note)

-- Texts that become the same when such comments are added, removed and reworded.
def DiffersInComments : Text → Text → Prop := Relation.EqvGen Annotated

section
variable {front note rest s t : Text}

theorem drop_append (place : Place) (s rest : Text) :
    dropComments place (s ++ rest) = dropComments place s ++ dropComments (place.after s) rest := by
  induction s generalizing place with
  | nil => rfl
  | cons c s ih =>
    have behind := ih (place.step c).1
    simp only [List.cons_append, dropComments]
    split
    · rw [behind, List.cons_append]
      rfl
    · rw [behind]
      rfl

theorem note_dropped (whole : '\n' ∉ note) :
    dropComments .comment (note ++ rest) = dropComments .comment rest := by
  induction note with
  | nil => rfl
  | cons c note ih =>
    obtain ⟨other, more⟩ := not_or.mp (List.mem_cons.not.mp whole)
    simp [dropComments, Place.step, Ne.symm other, ih more]

theorem annotated_dropped (annotated : Annotated s t) :
    dropComments .plain t = dropComments .plain s := by
  cases annotated with
  | @line front note rest outside whole =>
    have line : dropComments .plain ('#' :: (note ++ '\n' :: rest)) =
        dropComments .plain ('\n' :: rest) := by
      calc dropComments .plain ('#' :: (note ++ '\n' :: rest))
          = dropComments .comment (note ++ '\n' :: rest) := rfl
        _ = dropComments .comment ('\n' :: rest) := note_dropped whole
        _ = dropComments .plain ('\n' :: rest) := rfl
    rw [drop_append, drop_append, outside, line]
  | @last front note outside whole =>
    have nothing : dropComments .plain ('#' :: note) = [] := by
      calc dropComments .plain ('#' :: note)
          = dropComments .comment (note ++ []) := by rw [List.append_nil]; rfl
        _ = dropComments .comment [] := note_dropped whole
    rw [drop_append, outside, nothing, List.append_nil]

theorem annotated_stripped (annotated : Annotated s t) : stripComments t = stripComments s := by
  rw [stripComments, annotated_dropped annotated, stripComments]

theorem DiffersInComments.stripped (differs : DiffersInComments s t) :
    stripComments s = stripComments t := by
  induction differs with
  | rel s t annotated => exact (annotated_stripped annotated).symm
  | refl s => rfl
  | symm s t _ ih => exact ih.symm
  | trans s u t _ _ first second => exact first.trans second

end

-- What a comment says does not matter, whichever marks it holds: the text is stripped as without
-- the comment, and texts that differ in nothing else are translated alike.
theorem comments_ignored :
    (∀ front note, Place.plain.after front = .plain → '\n' ∉ note →
      (∀ rest, stripComments (front ++ '#' :: (note ++ '\n' :: rest)) =
        stripComments (front ++ '\n' :: rest)) ∧
      stripComments (front ++ '#' :: note) = stripComments front) ∧
    ∀ s t, DiffersInComments s t → translate s = translate t := by
  constructor
  · intro front note outside whole
    exact ⟨fun rest => annotated_stripped (.line outside whole),
      annotated_stripped (.last outside whole)⟩
  · intro s t differs
    rw [translate, planQuery, differs.stripped, translate, planQuery]

-- Behind a first comment, an IRI and a literal with number signs.
def signedFront : Text := "SELECT ?x # it's\nWHERE \x7b ?x <p#q> 'a # b'."

-- Marks that would open a literal, an IRI or a comment and close the group.
def markedNote : Text := " don't <\" \x7d # see <#"

theorem marked_note_ignored :
    Place.plain.after signedFront = .plain ∧ '\n' ∉ markedNote ∧
    stripComments (signedFront ++ '#' :: (markedNote ++ '\n' :: ("\x7d" : Text))) =
      stripComments (signedFront ++ '\n' :: ("\x7d" : Text)) ∧
    stripComments (signedFront ++ '#' :: markedNote) = stripComments signedFront ∧
    translate (signedFront ++ '#' :: (markedNote ++ '\n' :: '\x7d' :: '#' :: markedNote)) =
      translate (signedFront ++ '\n' :: ("\x7d" : Text)) := by
  have outside : Place.plain.after signedFront = .plain := by decide +kernel
  have closed : Place.plain.after (signedFront ++ '\n' :: ("\x7d" : Text)) = .plain := by
    decide +kernel
  have whole : '\n' ∉ markedNote := by decide +kernel
  have inside := comments_ignored.1 signedFront markedNote outside whole
  have first : DiffersInComments
      (signedFront ++ '#' :: (markedNote ++ '\n' :: '\x7d' :: '#' :: markedNote))
      (signedFront ++ '\n' :: '\x7d' :: '#' :: markedNote) :=
    .symm _ _ (.rel _ _ (.line outside whole))
  have second : DiffersInComments (signedFront ++ '\n' :: '\x7d' :: '#' :: markedNote)
      (signedFront ++ '\n' :: ("\x7d" : Text)) := by
    have split : signedFront ++ '\n' :: '\x7d' :: '#' :: markedNote =
        (signedFront ++ '\n' :: ("\x7d" : Text)) ++ '#' :: markedNote := by simp
    rw [split]
    exact .symm _ _ (.rel _ _ (.last closed whole))
  exact ⟨outside, whole, inside.1 "\x7d", inside.2,
    comments_ignored.2 _ _ (.trans _ _ _ first second)⟩

end TripleTable.Sparql
