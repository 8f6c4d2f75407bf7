import MessageArchive.Archive.Archiver
import MessageArchive.Proofs.Archive.Searching
import MessageArchive.Proofs.Template.Trails

set_option autoImplicit false

/-! # The trail of archiving

Archiving opens its trail with an entry of its own and closes it with the outcome. Between the two
stands what the resolution of the template has left (`TemplateReading.resolution`), unless there is
no directory to archive to. Storing the payload leaves nothing, so the trail is told from the
template, the message, the moment and the outcome (`trail_is_exact`).
-/

namespace MessageArchive.Archive

open MessageArchive.Audit MessageArchive.Template MessageArchive.Text

/-- The last entry of a trail. -/
def outcome (messageId : String) : Except ArchiveError Receipt → Entry
  | .ok receipt => ⟨messageId, .success, "payload written to " ++ receipt.path.text⟩
  | .error e => ⟨messageId, .error, "archiving failed: " ++ e.message⟩

/-- The entries for an archiving that ends with a result, when the given dates are come to in the
template. -/
def trailOf (s : Settings) (context : Context) (now : Calendar.Moment) (t : FileTree)
    (result : Except ArchiveError Receipt) (dates : List (List Char)) (r : TemplateReading) :
    List Entry :=
  ⟨context.id, .success, "msgarc archiver 0.1.0"⟩ ::
    ((if (ensureDir t s.baseDir).1.isOk then r.resolution s.missingProperty context now dates
      else []) ++ [outcome context.id result])

theorem entry_closing (id : String) (result : Except ArchiveError Receipt) :
    (closing result).entry id = outcome id result := by
  cases result with
  | ok receipt => rfl
  | error e => rfl

variable (s : Settings) (context : Context) (payload : Bytes) (now : Calendar.Moment)

/-- Storing leaves nothing behind that resolving has not left. -/
theorem storeNamed_trail (ready : FileTree) :
    (storeNamed s context payload now ready).1.trail = (resolveName s context now).trail := by
  unfold storeNamed
  dsimp only
  split
  · rfl
  · split
    · rfl
    · rfl

theorem write_trail (t : FileTree) :
    (write s context payload now t).1.trail =
      if (ensureDir t s.baseDir).1.isOk then (resolveName s context now).trail else [] := by
  unfold write
  cases ensureDir t s.baseDir with
  | mk made ready =>
      cases made with
      | error e => rfl
      | ok u => exact storeNamed_trail s context payload now ready

theorem entries_archive (t : FileTree) {r : TemplateReading}
    (h : r.Of (withTokens context now s.template.toList)) :
    entries context.id (archive s context payload now t).1.trail =
      trailOf s context now t (archive s context payload now t).1.result (datesRead r.braces) r := by
  show entries context.id (.started :: (write s context payload now t).1.trail ++ [closing _]) = _
  rw [write_trail, entries, List.map_append, List.map_cons, List.map_singleton, entry_closing,
    trailOf, ← entries_resolve s.missingProperty context now h]
  split
  · rfl
  · rfl

/-- **The trail of archiving is exact.** The template is read in one way and no other. The trail is
the archiver's own entry; then, if there is a directory to archive to, what is recorded of the
references up to the first that does not resolve, and if all of them do, of the dates up to the
first that does not, as far as they stand before a brace that is never closed; and then the outcome. -/
theorem trail_is_exact (t : FileTree) :
    ∃ r : TemplateReading, r.Of (withTokens context now s.template.toList) ∧
      (∀ r' : TemplateReading, r'.Of (withTokens context now s.template.toList) → r' = r) ∧
      entries context.id (archive s context payload now t).1.trail =
        trailOf s context now t (archive s context payload now t).1.result (datesRead r.braces)
          r := by
  obtain ⟨r, hr⟩ := TemplateReading.exists_of (withTokens context now s.template.toList)
  exact ⟨r, hr, fun r' hr' => hr'.unique hr, entries_archive s context payload now t hr⟩

/-! ### A date behind a brace that is not closed -/

/-- Settings with a template in which a brace is not closed, and a date stands behind a reference
after it. -/
def openBrace : Settings where
  baseDir := ⟨"d"⟩
  fileName := "\x7byy[ns/a]\x7bHH\x7d"
  extension := ""

/-- The way the template is read. -/
def openBraceReading : TemplateReading where
  brackets := .more ['\x7b', 'y', 'y'] ['n', 's', '/', 'a'] (.last ['\x7b', 'H', 'H', '\x7d'])
  slots := [.reference ⟨"ns", "a"⟩]
  braces := [.unclosed [] ['y', 'y'], .more [] ['H', 'H'] (.last [])]

/-- A message with the property that the template refers to. -/
def labelled : Context :=
  { id := "m", properties := Properties.empty.insert "ns" "a" "x" : Message }.context

/-- The moment that instants are counted from. -/
def epoch : Calendar.Moment := { instant := ⟨0, 0⟩ }

theorem openBraceReading_of :
    openBraceReading.Of (withTokens labelled epoch openBrace.template.toList) := by
  have htext : withTokens labelled epoch openBrace.template.toList =
      ['\x7b', 'y', 'y'] ++ '[' :: (['n', 's', '/', 'a'] ++ ']' :: ['\x7b', 'H', 'H', '\x7d']) := by
    decide
  rw [htext]
  refine ⟨.more (by decide) (by decide) (.last (by decide)), ?_, ?_⟩
  · exact .cons ⟨by decide, by decide⟩ .nil
  · exact .cons (.unclosed (by decide) (by decide))
      (.cons (.more (by decide) (by decide) (.last (by decide))) .nil)

/-- The reference resolves, and the date behind the open brace could be written, but it is not come
to. -/
theorem date_behind_open_brace :
    openBraceReading.Of (withTokens labelled epoch openBrace.template.toList) ∧
    openBraceReading.complete .empty labelled = true ∧
    entries labelled.id (archive openBrace labelled [] epoch oneTaken).1.trail ≠
      trailOf openBrace labelled epoch oneTaken
        (archive openBrace labelled [] epoch oneTaken).1.result
        (openBraceReading.braces.flatMap Reading.bodies) openBraceReading := by
  have hcomplete : openBraceReading.complete .empty labelled = true := by decide
  have hready : (ensureDir oneTaken openBrace.baseDir).1.isOk = true := by decide
  refine ⟨openBraceReading_of, hcomplete, fun h => ?_⟩
  rw [entries_archive openBrace labelled [] epoch oneTaken openBraceReading_of] at h
  -- One of the trails has an entry more.
  have hlength := congrArg List.length h
  have hread : datesRead openBraceReading.braces = [] := rfl
  have hall : openBraceReading.braces.flatMap Reading.bodies = [['H', 'H']] := rfl
  have hpolicy : openBrace.missingProperty = .empty := rfl
  simp only [trailOf, hready, TemplateReading.resolution, hpolicy, hcomplete, hread, hall, dateEntries,
    if_true, upToFirst, ite_self, List.map_nil, List.map_cons, List.length_cons, List.length_append,
    List.length_nil] at hlength
  omega

end MessageArchive.Archive
