import Mathlib.Data.List.Forall2
import MessageArchive.Archive.Checksum
import MessageArchive.CommandLine.Run
import MessageArchive.Proofs.Archive.AllOrNothing
import MessageArchive.Proofs.Digest.Standard
import MessageArchive.Proofs.Text.Trimming

set_option autoImplicit false

/-! # Receipts can be checked

The digest on a receipt comes from a hasher that has seen the pieces as they were written, and the
one it is checked against from a hasher that has seen the file in pieces of another length. Both
know the concatenation alone, so both tell the digest of the standard (`Receipt.TellsOf`,
`checksum_of_content`).

An expected digest may have blanks around it and letters in either case (`Expects`). As none of the
digits is blank in either case, such a text has the digest as its core, and `receipts_verify` says
that it is accepted as long as the file is what it was.
-/

namespace MessageArchive.Archive

open MessageArchive.Digest

/-! ## Letters in either case -/

/-- The characters are the same, or one ASCII letter in its two cases. -/
def SameLetter (a b : Char) : Prop :=
  a = b ∨ a.isUpper = true ∧ b.toNat = a.toNat + 32 ∨ b.isUpper = true ∧ a.toNat = b.toNat + 32

theorem isUpper_iff {c : Char} : c.isUpper = true ↔ 65 ≤ c.toNat ∧ c.toNat ≤ 90 := by
  show decide ('A'.val ≤ c.val ∧ c.val ≤ 'Z'.val) = true ↔ _
  rw [decide_eq_true_eq, UInt32.le_iff_toNat_le, UInt32.le_iff_toNat_le]
  rfl

theorem toLower_of_not_isUpper {c : Char} (h : ¬ c.isUpper = true) : c.toLower = c :=
  dif_neg fun hupper => h (decide_eq_true hupper)

theorem toNat_toLower_of_isUpper {c : Char} (h : c.isUpper = true) :
    c.toLower.toNat = c.toNat + 32 := by
  have hle := isUpper_iff.1 h
  have hval : c.toLower.toNat = (c.val + 32).toNat :=
    congrArg Char.toNat (dif_pos (of_decide_eq_true h))
  have hsum : (c.val + 32).toNat = (c.toNat + 32) % 2 ^ 32 := UInt32.toNat_add c.val 32
  -- A capital letter is far from where the sum would wrap around.
  rw [hval, hsum]
  omega

theorem toNat_toLower (c : Char) :
    c.toLower.toNat = if c.isUpper then c.toNat + 32 else c.toNat := by
  split
  next h => exact toNat_toLower_of_isUpper h
  next h => rw [toLower_of_not_isUpper h]

theorem toLower_eq_iff {a b : Char} : a.toLower = b.toLower ↔ SameLetter a b := by
  rw [← Char.toNat_inj, toNat_toLower, toNat_toLower, SameLetter, ← Char.toNat_inj]
  simp only [isUpper_iff]
  split <;> split <;> omega

/-- Texts are the same in lower case exactly if they differ in the case of letters alone. -/
theorem lowerCase_eq_iff {s t : List Char} :
    lowerCase s = lowerCase t ↔ List.Forall₂ SameLetter s t := by
  have hletter : (fun a b : Char => a.toLower = b.toLower) = SameLetter :=
    funext₂ fun a b => propext toLower_eq_iff
  rw [lowerCase, lowerCase, ← List.forall₂_eq_eq_eq, List.forall₂_map_left_iff,
    List.forall₂_map_right_iff, hletter]

/-- Nothing from `A` to `z` is blank. -/
theorem not_blank_of_letter {c : Char} (hlow : 65 ≤ c.toNat) (hhigh : c.toNat ≤ 122) :
    Text.isBlank c = false := by
  simp only [Text.isBlank, Bool.or_eq_false_iff, Bool.and_eq_false_iff, decide_eq_false_iff_not,
    beq_eq_false_iff_ne]
  omega

theorem isBlank_toLower (c : Char) : Text.isBlank c.toLower = Text.isBlank c := by
  by_cases h : c.isUpper = true
  · have hle := isUpper_iff.1 h
    have hlower := toNat_toLower_of_isUpper h
    rw [not_blank_of_letter (by omega) (by omega), not_blank_of_letter hle.1 (by omega)]
  · rw [toLower_of_not_isUpper h]

/-! ## Expected digests -/

/-- The text is the digest, with letters in either case and blanks around it. -/
def Expects (text digest : String) : Prop :=
  ∃ core, Text.IsTrimmed core text.toList ∧ List.Forall₂ SameLetter digest.toList core

theorem sameDigest_iff {digest expected : String} :
    sameDigest digest expected = true ↔ Expects expected digest := by
  rw [sameDigest, beq_iff_eq, lowerCase_eq_iff]
  constructor
  · intro h
    exact ⟨_, Text.isTrimmed_trim _, h⟩
  · rintro ⟨core, hcore, h⟩
    rwa [← Text.isTrimmed_iff.1 hcore]

theorem hexDigit_not_blank {n : Nat} (h : n < 16) : Text.isBlank (Text.hexDigit n) = false := by
  have hall : ∀ m : Fin 16, Text.isBlank (Text.hexDigit m) = false := by decide
  exact hall ⟨n, h⟩

theorem hexOfBytes_not_blank {bytes : List UInt8} {c : Char} (h : c ∈ Text.hexOfBytes bytes) :
    Text.isBlank c = false := by
  obtain ⟨b, -, hc⟩ := List.mem_flatMap.1 h
  have hb := b.toNat_lt
  rcases List.mem_pair.1 hc with rfl | rfl
  · exact hexDigit_not_blank (by omega)
  · exact hexDigit_not_blank (by omega)

/-- The digits of a digest stay without blanks when the case of letters changes. -/
theorem not_blank_of_sameLetter {bytes : List UInt8} {text : List Char}
    (h : List.Forall₂ SameLetter (Text.hexOfBytes bytes) text) {c : Char} (hc : c ∈ text) :
    Text.isBlank c = false := by
  obtain ⟨i, hi, rfl⟩ := List.getElem_of_mem hc
  have hi' : i < (Text.hexOfBytes bytes).length := h.length_eq ▸ hi
  have hletter : SameLetter (Text.hexOfBytes bytes)[i] text[i] := h.get hi' hi
  rw [← isBlank_toLower, ← toLower_eq_iff.2 hletter, isBlank_toLower]
  exact hexOfBytes_not_blank (List.getElem_mem hi')

theorem expects_hexDigest {bytes : List UInt8} {front text back : List Char}
    (hfront : ∀ c ∈ front, Text.isBlank c = true) (hback : ∀ c ∈ back, Text.isBlank c = true)
    (h : List.Forall₂ SameLetter (hexDigest bytes).toList text) :
    Expects (String.ofList (front ++ text ++ back)) (hexDigest bytes) := by
  have hdigits : List.Forall₂ SameLetter (Text.hexOfBytes bytes) text := by
    rwa [hexDigest, String.toList_ofList] at h
  refine ⟨text, ⟨⟨front, back, String.toList_ofList, hfront, hback⟩, ?_, ?_⟩, h⟩
  · exact fun c hc => not_blank_of_sameLetter hdigits (List.mem_of_head? hc)
  · exact fun c hc => not_blank_of_sameLetter hdigits (List.mem_of_getLast? hc)

/-! ## The digest of a file -/

/-- Reading a content in pieces comes to the same as having it in one piece behind what came
before. -/
theorem hashPieces_eq {h : Sha256.Hasher} (front content : Bytes)
    (hfront : h = Sha256.Hasher.empty.update front) :
    hashPieces h content = Sha256.Hasher.empty.update (front ++ content) := by
  fun_induction hashPieces h content generalizing front with
  | case1 h => rw [hfront, List.append_nil]
  | case2 h first rest ih =>
      have hnext := ih (front ++ (first :: rest).take readLength)
        (by rw [hfront, Sha256.Hasher.update_append])
      rw [hnext, List.append_assoc, List.take_append_drop]

theorem checksum_of_content {t : FileTree} {p : Path} {content : Bytes}
    (h : t.contentOf p = .ok content) :
    checksum t p = .ok (hexDigest (Sha256.digest content)) := by
  obtain ⟨loc, hloc, hfile⟩ := FileTree.locate_of_contentOf h
  have hnode : t.nodeOf p = .ok (.file content) := by simp only [FileTree.nodeOf, hloc, hfile]
  have hempty := (Writer.wrote_nil p []).hasher
  rw [checksum, hnode]
  dsimp only
  rw [hashPieces_eq [] content hempty, List.nil_append, Sha256.Hasher.finish_update_empty]

theorem verify_of_content {t : FileTree} {p : Path} {content : Bytes}
    (h : t.contentOf p = .ok content) (expected : String) :
    verify t p expected = .ok (sameDigest (hexDigest (Sha256.digest content)) expected) := by
  rw [verify, checksum_of_content h]
  rfl

/-! ## Receipts -/

/-- The receipt tells the length and the digest of the content. -/
structure Receipt.TellsOf (r : Receipt) (content : Bytes) : Prop where
  bytes : r.bytes = content.length
  sha256 : ∃ d, Sha256.IsDigest content d ∧ r.sha256 = hexDigest d

/-- The receipt has been given out in a tree: by a writer that was finished, for a payload that was
stored, or for a message. -/
inductive Given : FileTree → Receipt → Prop
  | written {t made : FileTree} {base : Path} {name : String} {limit : Nat} {w : Writer}
      (claimed : createUnique t base name limit = .ok (made, w)) (pieces : List Bytes) :
      Given (w.writeAll made pieces).1 (w.writeAll made pieces).2.finish
  | stored {t stored : FileTree} {base : Path} {name : String} {limit : Nat} {payload : Bytes}
      {r : Receipt} (done : store t base name limit payload = .ok (stored, r)) : Given stored r
  | archived {s : Settings} {context : Context} {payload : Bytes} {now : Calendar.Moment}
      {t : FileTree} {r : Receipt} (done : (archive s context payload now t).1.result = .ok r) :
      Given (archive s context payload now t).2 r

theorem Stored.content {t stored : FileTree} {payload : Bytes} {r : Receipt}
    (h : Stored t stored payload r) : stored.contentOf r.path = .ok payload :=
  h.newFile.content (FileTree.Keeps.refl [] stored) List.not_mem_nil

theorem Stored.tellsOf {t stored : FileTree} {payload : Bytes} {r : Receipt}
    (h : Stored t stored payload r) : r.TellsOf payload :=
  ⟨h.bytes, _, Sha256.isDigest_iff.2 rfl, h.sha256⟩

/-- The receipt tells of what is in its file. -/
theorem Given.stored_in {t : FileTree} {r : Receipt} (h : Given t r) :
    ∃ before payload, Stored before t payload r := by
  cases h with
  | written claimed pieces => exact ⟨_, _, stored_of_writeAll claimed pieces⟩
  | stored done => exact ⟨_, _, store_eq_ok done⟩
  | @archived s context payload now before r done =>
      obtain ⟨ready, -, hspec⟩ := archive_spec s context payload now before
      rw [done] at hspec
      exact ⟨ready, payload, hspec.1⟩

/-- **Main theorem.** However a content came in pieces, the receipt of its writer tells its length
and its digest after FIPS 180-4. The digest of a file is that of its whole content, and a text is
accepted for it exactly if it is the digest in letters of either case with blanks around it. So a
receipt goes on being accepted, by itself and on the command line, as long as there is in its file
what was there when the receipt was given out. -/
theorem receipts_verify :
    (∀ (t made : FileTree) (base : Path) (name : String) (limit : Nat) (w : Writer),
      createUnique t base name limit = .ok (made, w) → ∀ pieces : List Bytes,
        (w.writeAll made pieces).2.finish.TellsOf pieces.flatten ∧
        (w.writeAll made pieces).2.finish.bytes = (pieces.map List.length).sum) ∧
    (∀ (t : FileTree) (p : Path) (content : Bytes), t.contentOf p = .ok content →
      ∃ d, Sha256.IsDigest content d ∧ checksum t p = .ok (hexDigest d) ∧
        ∀ expected, ∃ same, verify t p expected = .ok same ∧
          (same = true ↔ Expects expected (hexDigest d))) ∧
    (∀ (t : FileTree) (r : Receipt), Given t r → ∀ later : FileTree,
      later.contentOf r.path = t.contentOf r.path → ∀ front text back : List Char,
      (∀ c ∈ front, Text.isBlank c = true) → (∀ c ∈ back, Text.isBlank c = true) →
      List.Forall₂ SameLetter r.sha256.toList text →
        verify later r.path (String.ofList (front ++ text ++ back)) = .ok true ∧
        CommandLine.runChecksum r.path (some (String.ofList (front ++ text ++ back))) later =
          ⟨[r.sha256 ++ "  " ++ r.path.text], .done⟩) := by
  refine ⟨?_, ?_, ?_⟩
  · intro t made base name limit w hclaimed pieces
    have hstored := stored_of_writeAll hclaimed pieces
    exact ⟨hstored.tellsOf, hstored.bytes.trans List.length_flatten⟩
  · intro t p content hcontent
    refine ⟨_, Sha256.isDigest_iff.2 rfl, checksum_of_content hcontent, fun expected => ?_⟩
    exact ⟨_, verify_of_content hcontent expected, sameDigest_iff⟩
  · intro t r hgiven later hsame front text back hfront hback htext
    obtain ⟨before, payload, hstored⟩ := hgiven.stored_in
    have hcontent := hsame.trans hstored.content
    rw [hstored.sha256] at htext ⊢
    have haccepted := sameDigest_iff.2 (expects_hexDigest hfront hback htext)
    refine ⟨?_, ?_⟩
    · rw [verify_of_content hcontent, haccepted]
    · rw [CommandLine.runChecksum, checksum_of_content hcontent]
      simp only [haccepted, if_true]

/-- A tree with nothing in it but its root. -/
def bareTree : FileTree where
  entries := []

/-- A writer at the root of the bare tree. -/
def rootWriter : Writer := { path := ⟨"/a"⟩, location := ["a"] }

theorem receipts_verify_abc :
    createUnique bareTree ⟨"/"⟩ "a" 0 = .ok (bareTree.put ["a"] (.file []), rootWriter) ∧
      ∃ (t : FileTree) (r : Receipt), r.path = ⟨"/a"⟩ ∧ t.contentOf r.path = .ok [97, 98, 99] ∧
        r.bytes = 3 ∧ verify t r.path (String.ofList (['\t'] ++ r.sha256.toList ++ [' ', '\n'])) =
          .ok true := by
  have hclaimed : createUnique bareTree ⟨"/"⟩ "a" 0 =
      .ok (bareTree.put ["a"] (.file []), rootWriter) := by decide
  obtain ⟨hwriter, -, haccepted⟩ := receipts_verify
  have hpieces := hwriter _ _ _ _ _ _ hclaimed [[97], [], [98, 99]]
  have hgiven := Given.written hclaimed [[97], [], [98, 99]]
  have hstored := stored_of_writeAll hclaimed [[97], [], [98, 99]]
  refine ⟨hclaimed, _, _, rfl, hstored.content, hpieces.2, ?_⟩
  exact (haccepted _ _ hgiven _ rfl ['\t'] _ [' ', '\n'] (List.all_eq_true.1 rfl)
    (List.all_eq_true.1 rfl) (List.forall₂_same.2 fun c _ => Or.inl rfl)).1

end MessageArchive.Archive
