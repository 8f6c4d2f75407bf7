import MessageArchive.Proofs.Archive.Previewing
import MessageArchive.Proofs.Calendar.Separators
import MessageArchive.Proofs.Template.Grammar
import MessageArchive.Proofs.Text.Trimming

set_option autoImplicit false

/-! # Flat templates archive flat

Dates bring no slash into a name but those of their patterns. So a template that has no slash outside
its references, and whose references have values without one, resolves to a name without a slash
(`slash_not_mem_name`). A number behind such a name leaves it a single name. What is stored under it is
a file, so it is neither empty nor `.`, and the name was accepted, so it is not `..`: the file stands in
the archive directory itself (`placedIn_of_stored`).
-/

namespace MessageArchive

/-! ## Names -/

namespace Template

open MessageArchive.Text

/-- No slash stands outside the references of the text, and no value that is read for one of them has a
slash in it. -/
def ReadsFlat (context : Context) (text : List Char) : Prop :=
  ∀ l : Layout (List Char), l.Reads '[' ']' text →
    (∀ s ∈ l.stretches, '/' ∉ s) ∧
      ∀ b ∈ l.bodies, ∀ r, Names b r → ∀ value, context.property r.space r.name = some value →
        '/' ∉ value.toList

theorem slash_not_mem_propertyText {context : Context} {body : List Char}
    (h : ∀ r, Names body r → ∀ value, context.property r.space r.name = some value →
      '/' ∉ value.toList) : '/' ∉ propertyText context body := by
  rw [propertyText]
  cases hr : Reference.ofText? (trim body) with
  | none => exact List.not_mem_nil
  | some r =>
      cases hvalue : context.property r.space r.name with
      | none => simp [hvalue]
      | some value =>
          simp only [hvalue, Option.getD_some]
          exact h r (names_iff_ofText?.2 hr) value hvalue

/-- The date in a pair of braces has no slash when its pattern has none. -/
theorem slash_not_mem_dateText {now : Calendar.Moment} {body : List Char} (h : '/' ∉ body) :
    '/' ∉ dateText now body := by
  rw [dateText]
  cases hdate : Calendar.formatDate (trim body) now with
  | error fault => exact List.not_mem_nil
  | ok date =>
      have hcopies : Calendar.Pattern.Copies '/' (trim body) now date :=
        Calendar.Pattern.formatDate_copies (by decide) (by decide) hdate
      exact Calendar.Pattern.not_mem_of_copies hcopies fun hmem => h (mem_of_mem_trim hmem)

/-- A stretch without a slash has none when its dates are written, either. -/
theorem slash_not_mem_dates {now : Calendar.Moment} {s : Layout (List Char)}
    (h : '/' ∉ writeDates s) : '/' ∉ s.fill id (dateText now) := by
  rw [writeDates, Layout.write, Layout.mem_fill_iff, not_or] at h
  rw [Layout.mem_fill_iff, not_or]
  refine ⟨h.1, ?_⟩
  rintro ⟨b, hb, hmem⟩
  refine slash_not_mem_dateText (fun hslash => h.2 ⟨b, hb, ?_⟩) hmem
  simp [enclose, hslash]

/-- A flat template gives a name without a slash. -/
theorem slash_not_mem_name {policy : MissingProperty} {template : String} {context : Context}
    {now : Calendar.Moment} {name : String}
    (hflat : ReadsFlat context (withTokens context now template.toList))
    (h : (resolve policy template context now).result = .ok name) : '/' ∉ name.toList := by
  obtain ⟨d, hreads, -, rfl⟩ := resolve_result_iff.1 h
  obtain ⟨l, hl, hrefines⟩ := Decomposition.reads_iff_refines.1 hreads
  obtain ⟨hstretches, hvalues⟩ := hflat l hl
  rw [hrefines.bodies] at hvalues
  rw [String.toList_ofList, Decomposition.name, Layout.mem_fill_iff, not_or]
  constructor
  · rintro ⟨s, hs, hmem⟩
    have hwritten : writeDates s ∈ l.stretches := by
      rw [← hrefines.written, Layout.stretches_map]
      exact List.mem_map_of_mem hs
    exact slash_not_mem_dates (hstretches _ hwritten) hmem
  · rintro ⟨b, hb, hmem⟩
    exact slash_not_mem_propertyText (hvalues b hb) hmem

end Template

/-! ## Files -/

namespace Archive

open MessageArchive.Path

/-- The path is the directory's path with one proper name behind it, and the payload is in a new file
of this name that stands in the directory itself. -/
structure PlacedIn (base : Path) (n : String) (t after : FileTree) (p : Path) (payload : Bytes) :
    Prop where
  isName : IsName n
  notDot : n ≠ "."
  notUp : n ≠ ".."
  path : p = base.join n
  parts : p.parts = base.parts ++ [n]
  components : p.components = base.components ++ [n]
  location : t.target p = n :: t.target base
  directory : after.node? (t.target base) = some .directory
  file : NewFile t after p payload

variable {t ready after : FileTree} {base : Path} {name : String} {limit : Nat} {payload : Bytes}
  {receipt : Receipt}

theorem slash_not_mem_numbered (h : '/' ∉ name.toList) (index : Nat) :
    '/' ∉ (numbered name index).toList := by
  rw [numbered_toList, List.mem_append, not_or]
  exact ⟨h, slash_not_mem_numbering index⟩

/-- A path joined from a base and an empty name is no path of a file. -/
theorem join_empty (base : Path) :
    (base.join "").text = "" ∨ (base.join "").endsWithSlash = true := by
  have hrel : (Path.mk "").isAbsolute = false := rfl
  rw [join, hrel]
  simp only [Bool.false_eq_true, if_false, String.append_empty]
  split
  next hclosed =>
    rw [Bool.or_eq_true, String.isEmpty_iff] at hclosed
    exact hclosed
  next => exact Or.inr (by simp [endsWithSlash])

theorem ne_empty_of_fileSlot {n : String} {loc : Location} (h : t.FileSlot (base.join n) loc) :
    n ≠ "" := by
  rintro rfl
  obtain ⟨dir, last, hslot, -, -⟩ := h.slot
  have hchecked := hslot.checked
  rcases join_empty base with hempty | hslash
  · simp [check, hempty] at hchecked
  · rw [h.noSlash] at hslash
    cases hslash

theorem parts_of_isName {n : String} (h : IsName n) : (Path.mk n).parts = [n] := by
  rw [parts_eq_namesIn, namesIn_of_not_mem h.2, if_neg h.1, String.ofList_toList]

/-- What is stored under a name without a slash is placed in the base. -/
theorem placedIn_of_stored (hname : '/' ∉ name.toList) (hkeeps : FileTree.Keeps [] t ready)
    (h : store ready base name limit payload = .ok (after, receipt)) :
    ∃ i, i ≤ limit ∧ PlacedIn base (numbered name i) t after receipt.path payload := by
  obtain ⟨made, c, hclaim, hcpath⟩ := claim_of_store h
  obtain ⟨hfree, -, i, hi, hpath⟩ := claim_eq_ok hclaim
  have hcheck : checkName name = .ok () := checkName_of_claim hclaim
  have hrel := isAbsolute_numbered (checkName_eq_ok_iff.1 hcheck).1 i
  rw [candidate] at hpath
  have hslot : ready.FileSlot (base.join (numbered name i)) c.location := hpath ▸ hfree.toFileSlot
  have hisName : IsName (numbered name i) := by
    refine ⟨?_, slash_not_mem_numbered hname i⟩
    rw [Ne, String.toList_eq_nil_iff]
    exact ne_empty_of_fileSlot hslot
  have hparts : (base.join (numbered name i)).parts = base.parts ++ [numbered name i] := by
    rw [parts_join hrel, parts_of_isName hisName]
  -- The last part of the path stands for a file, and what is before it leads to where the base does.
  obtain ⟨dir, last, hlast, -, -⟩ := hslot.slot
  obtain ⟨above, habove, hwalk⟩ := hlast.above
  rw [hparts] at habove
  obtain ⟨rfl, hlasts⟩ := List.append_inj' habove rfl
  obtain rfl := List.singleton_inj.1 hlasts
  have hdir : dir = t.target base := by
    rw [FileTree.walk_eq_follow hwalk, ← hkeeps.target, FileTree.target, FileTree.start,
      isAbsolute_join hrel, ← FileTree.start]
  have hstored := store_eq_ok h
  have hpathR : receipt.path = base.join (numbered name i) := hcpath.symm.trans hpath
  refine ⟨i, hi, hisName, hlast.notDot, hlast.notUp, hpathR, hpathR ▸ hparts, ?_, ?_, ?_, ?_⟩
  · rw [hpathR]
    exact components_of_parts_concat hparts (isAbsolute_join hrel base) hlast.notDot
  · rw [hpathR, ← hkeeps.target, hlast.target, hdir]
  · rw [← hdir]
    exact hstored.keeps.directories _ hlast.isDir
  · exact hstored.newFile.of_keeps hkeeps

/-! ## Archiving -/

/-- **Flat templates archive flat.** A moment is written with exactly the slashes that are copied from
its pattern. So a template with no slash outside its references, none of which has a value with a slash,
resolves to a name without one; and archiving that succeeds with such a template makes its file in the
archive directory itself, under one name that is neither `.` nor `..`. -/
theorem flat_templates_archive_flat :
    (∀ pattern m text, Calendar.formatDate pattern m = .ok text →
      Calendar.Pattern.Copies '/' pattern m text) ∧
    (∀ policy template context now name,
      Template.ReadsFlat context (Template.withTokens context now template.toList) →
      (Template.resolve policy template context now).result = .ok name → '/' ∉ name.toList) ∧
    ∀ (s : Settings) context payload now t receipt,
      Template.ReadsFlat context (Template.withTokens context now s.template.toList) →
      (archive s context payload now t).1.result = .ok receipt →
      ∃ n, PlacedIn s.baseDir n t (archive s context payload now t).2 receipt.path payload := by
  refine ⟨fun pattern m text h => Calendar.Pattern.formatDate_copies (by decide) (by decide) h,
    fun policy template context now name => Template.slash_not_mem_name, ?_⟩
  intro s context payload now t receipt hflat h
  obtain ⟨name, hname, hstore⟩ := archive_eq_ok h
  obtain ⟨i, -, hplaced⟩ := placedIn_of_stored (Template.slash_not_mem_name hflat hname)
    (ensureDir_adds t s.baseDir).keeps hstore
  exact ⟨_, hplaced⟩

/-- A template whose property is empty and whose date is a dot. -/
def dotSettings : Settings where
  baseDir := ⟨"d"⟩
  fileName := "[n/s/a]\x7b.\x7d"
  extension := ""

/-- A message with that property. -/
def dotContext : Context :=
  { id := "m", properties := Properties.empty.insert "n/s" "a" "" : Message }.context

/-- A moment in a zone west of UTC that is off by hours, minutes and seconds. -/
def dotMoment : Calendar.Moment where
  instant := { seconds := 3661 }
  zone := .fixed (-3661)

theorem dotSettings_readsFlat :
    Template.ReadsFlat dotContext
      (Template.withTokens dotContext dotMoment dotSettings.template.toList) := by
  have hread : Text.Layout.Reads '[' ']' (.more [] "n/s/a".toList (.last "\x7b.\x7d".toList))
      (Template.withTokens dotContext dotMoment dotSettings.template.toList) := by
    refine ⟨by decide +kernel, by decide, by decide⟩
  intro l hl
  rw [hl.unique hread]
  refine ⟨by decide, fun b hb r hr value hvalue => ?_⟩
  obtain rfl := List.mem_singleton.1 hb
  obtain rfl : r = ⟨"n/s", "a"⟩ := hr.unique ⟨by decide, by decide⟩
  have hempty : dotContext.property "n/s" "a" = some "" := by decide +kernel
  rw [hempty] at hvalue
  obtain rfl := Option.some.inj hvalue
  decide

/-- The name is `.`, which names the archive directory and so is taken; the file is `..1` in it. -/
theorem flat_templates_archive_flat_at_dot :
    (Calendar.formatDate "dd/MM'/'z".toList dotMoment = .ok "01/01/-01:01:01".toList ∧
      Calendar.Pattern.Copies '/' "dd/MM'/'z".toList dotMoment "01/01/-01:01:01".toList) ∧
    Template.ReadsFlat dotContext
      (Template.withTokens dotContext dotMoment dotSettings.template.toList) ∧
    ((Template.resolve .empty dotSettings.template dotContext dotMoment).result = .ok "." ∧
      '/' ∉ ".".toList) ∧
    ∃ receipt, (archive dotSettings dotContext [1] dotMoment {}).1.result = .ok receipt ∧
      receipt.path = ⟨"d/..1"⟩ ∧
      ∃ n, PlacedIn ⟨"d"⟩ n {} (archive dotSettings dotContext [1] dotMoment {}).2 receipt.path
        [1] := by
  have hdate : Calendar.formatDate "dd/MM'/'z".toList dotMoment = .ok "01/01/-01:01:01".toList := by
    decide +kernel
  have hname : (Template.resolve .empty dotSettings.template dotContext dotMoment).result =
      .ok "." := by
    decide +kernel
  have harchive : (archive dotSettings dotContext [1] dotMoment {}).1.result =
      .ok ⟨⟨"d/..1"⟩, 1, "4bf5122f344554c53bde2ebb8cd2b7e3d1600ad631c385a5d7cce23c7785459a"⟩ := by
    decide +kernel
  obtain ⟨hdates, hnames, hfiles⟩ := flat_templates_archive_flat
  exact ⟨⟨hdate, hdates _ _ _ hdate⟩, dotSettings_readsFlat,
    ⟨hname, hnames _ _ _ _ _ dotSettings_readsFlat hname⟩,
    _, harchive, rfl, hfiles dotSettings _ _ _ _ _ dotSettings_readsFlat harchive⟩

end Archive

end MessageArchive
