import Mathlib.Data.List.Perm.Basic
import MessageArchive.Proofs.FileTree.Keeping
import MessageArchive.Proofs.Json.Writing

set_option autoImplicit false

/-! # Envelopes and their messages

An envelope in JSON is an object. It describes a message when its members give the values of the
message, each once, in any order, with other members anywhere between them (`Describes`). The members
that a message is written as describe it, in every order (`describes_of_perm`), and an object that
describes a message is read as that message (`load_of_describes`). An object without an id, or with two
members of one of the six names, is no message (`load_of_lacksOrRepeats`).
-/

namespace MessageArchive.Message

open MessageArchive.Text MessageArchive.Json

/-! ## What an envelope describes -/

/-- The members that a message is written as. -/
def members (m : Message) : List (String × List Char) :=
  [("id", quote m.id), ("from_party", quote m.fromParty), ("to_party", quote m.toParty),
    ("from_service", quote m.fromService), ("to_service", quote m.toService),
    ("properties", ofProperties m.properties)]

def memberNames : List String :=
  ["id", "from_party", "to_party", "from_service", "to_service", "properties"]

/-- The values of a name among members, as they are written. -/
def textsOf (name : String) (ms : List (String × List Char)) : List (List Char) :=
  (ms.filter fun m => m.1 == name).map Prod.snd

/-- The members give the text under the name: one string spells it, or it is empty and left out. -/
def GivesText (name : String) (ms : List (String × List Char)) (text : String) : Prop :=
  (∃ s, textsOf name ms = [s] ∧ Spells s text) ∨ textsOf name ms = [] ∧ text = ""

/-- The members give the values of a message, and what else they give is JSON. -/
structure Describes (ms : List (String × List Char)) (m : Message) : Prop where
  id : ∃ s, textsOf "id" ms = [s] ∧ Spells s m.id
  fromParty : GivesText "from_party" ms m.fromParty
  toParty : GivesText "to_party" ms m.toParty
  fromService : GivesText "from_service" ms m.fromService
  toService : GivesText "to_service" ms m.toService
  properties : textsOf "properties" ms = [ofProperties m.properties] ∨
    textsOf "properties" ms = [] ∧ m.properties = .empty
  others : ∀ e ∈ ms, e.1 ∉ memberNames → IsValue e.2

/-- The members do not have an id, or they have two values for one of the six names. -/
def LacksOrRepeats (ms : List (String × List Char)) : Prop :=
  textsOf "id" ms = [] ∨ ∃ name ∈ memberNames, 2 ≤ (textsOf name ms).length

/-- Members of other names than the six, with values of any kind. -/
def AreOthers (ms : List (String × List Char)) : Prop :=
  ∀ e ∈ ms, e.1 ∉ memberNames ∧ IsValue e.2

variable {ms others : List (String × List Char)} {name : String} {m : Message}

/-- Of a name that occurs once, the value does not depend on the order. -/
theorem textsOf_of_perm {s : List Char} {ms' : List (String × List Char)} (h : ms.Perm ms')
    (hone : textsOf name ms' = [s]) : textsOf name ms = [s] := by
  have hperm : (textsOf name ms).Perm (textsOf name ms') := (h.filter _).map _
  rw [hone] at hperm
  exact List.perm_singleton.1 hperm

/-- Other members give nothing under one of the six names. -/
theorem textsOf_append_others (h : AreOthers others) (hname : name ∈ memberNames) :
    textsOf name (ms ++ others) = textsOf name ms := by
  have hnone : (others.filter fun m => m.1 == name) = [] := by
    rw [List.filter_eq_nil_iff]
    intro e he heq
    exact (h e he).1 (beq_iff_eq.1 heq ▸ hname)
  rw [textsOf, List.filter_append, hnone, List.append_nil, textsOf]

/-- The members of a message describe it, in every order and with others anywhere among them. -/
theorem describes_of_perm (hothers : AreOthers others) (h : ms.Perm (m.members ++ others)) :
    Describes ms m := by
  have hone : ∀ name ∈ memberNames, ∀ s, textsOf name m.members = [s] → textsOf name ms = [s] := by
    intro name hname s hs
    exact textsOf_of_perm h (by rw [textsOf_append_others hothers hname, hs])
  have htext : ∀ name ∈ memberNames, ∀ text, textsOf name m.members = [quote text] →
      ∃ s, textsOf name ms = [s] ∧ Spells s text := fun name hname text hs =>
    ⟨_, hone name hname _ hs, spells_quote text⟩
  refine ⟨htext _ (by decide) _ rfl, Or.inl (htext _ (by decide) _ rfl),
    Or.inl (htext _ (by decide) _ rfl), Or.inl (htext _ (by decide) _ rfl),
    Or.inl (htext _ (by decide) _ rfl), Or.inl (hone _ (by decide) _ rfl), fun e he hname => ?_⟩
  rcases List.mem_append.1 (h.mem_iff.1 he) with he | he
  · have hnames : m.members.map Prod.fst = memberNames := rfl
    exact absurd (hnames ▸ List.mem_map_of_mem he) hname
  · exact (hothers e he).2

/-! ## Members that are read -/

/-- The members of an object as they are read. -/
def readMembers (ms : List (String × List Char)) : List (Option String × Value) :=
  ms.map fun m => (some m.1, valueOf m.2)

theorem valuesOf_readMembers (name : String) (ms : List (String × List Char)) :
    valuesOf name (readMembers ms) = (textsOf name ms).map valueOf := by
  induction ms with
  | nil => rfl
  | cons e ms ih =>
      rw [valuesOf, textsOf] at ih ⊢
      rw [readMembers, List.map_cons, ← readMembers]
      by_cases hname : e.1 = name
      · simp [hname, ih]
      · simp [hname, ih]

theorem any_isNone_readMembers (ms : List (String × List Char)) :
    ((readMembers ms).any fun member => member.1.isNone) = false := by
  simp [readMembers]

/-- A member that is given once has the value that is read. -/
theorem readMember_of_once {α : Type} {f : Value → Option α} {missing : Option α} {s : List Char}
    (h : textsOf name ms = [s]) : readMember f missing name (readMembers ms) = f (valueOf s) := by
  rw [readMember, valuesOf_readMembers, h]
  rfl

theorem readMember_of_missing {α : Type} {f : Value → Option α} {missing : Option α}
    (h : textsOf name ms = []) : readMember f missing name (readMembers ms) = missing := by
  rw [readMember, valuesOf_readMembers, h]
  rfl

/-- A member that is read is given at most once. -/
theorem length_textsOf_le {α : Type} {f : Value → Option α} {missing : Option α} {a : α}
    (h : readMember f missing name (readMembers ms) = some a) : (textsOf name ms).length ≤ 1 := by
  rw [readMember, valuesOf_readMembers] at h
  match hs : textsOf name ms with
  | [] => simp
  | [_] => simp
  | _ :: _ :: _ =>
      rw [hs] at h
      cases h

theorem GivesText.readMember_eq {text : String} (h : GivesText name ms text) :
    readMember Value.text? (some "") name (readMembers ms) = some text := by
  rcases h with ⟨s, hs, hspells⟩ | ⟨hnil, rfl⟩
  · rw [readMember_of_once hs, hspells.text?_eq]
  · rw [readMember_of_missing hnil]

/-- Members that describe a message are read as the message. -/
theorem messageOfMembers?_of_describes (h : Describes ms m) :
    messageOfMembers? (readMembers ms) = some m := by
  have hid : readMember Value.text? none "id" (readMembers ms) = some m.id := by
    obtain ⟨s, hs, hspells⟩ := h.id
    rw [readMember_of_once hs, hspells.text?_eq]
  have hproperties : readMember Value.properties? (some .empty) "properties" (readMembers ms) =
      some m.properties := by
    rcases h.properties with hs | ⟨hnil, hempty⟩
    · rw [readMember_of_once hs, properties?_ofProperties]
    · rw [readMember_of_missing hnil, hempty]
  rw [messageOfMembers?, if_neg (by simp [any_isNone_readMembers]), hid,
    h.fromParty.readMember_eq, h.toParty.readMember_eq, h.fromService.readMember_eq,
    h.toService.readMember_eq, hproperties]
  rfl

/-- Members that are read as a message have an id and repeat none of the six names. -/
theorem not_lacksOrRepeats (h : messageOfMembers? (readMembers ms) = some m) :
    ¬LacksOrRepeats ms := by
  rw [messageOfMembers?, if_neg (by simp [any_isNone_readMembers])] at h
  obtain ⟨id, hid, h⟩ := Option.bind_eq_some_iff.1 h
  obtain ⟨fromParty, hfromParty, h⟩ := Option.bind_eq_some_iff.1 h
  obtain ⟨toParty, htoParty, h⟩ := Option.bind_eq_some_iff.1 h
  obtain ⟨fromService, hfromService, h⟩ := Option.bind_eq_some_iff.1 h
  obtain ⟨toService, htoService, h⟩ := Option.bind_eq_some_iff.1 h
  obtain ⟨properties, hproperties, -⟩ := Option.bind_eq_some_iff.1 h
  have honce : ∀ name ∈ memberNames, (textsOf name ms).length ≤ 1 := by
    simp only [memberNames, List.forall_mem_cons]
    exact ⟨length_textsOf_le hid, length_textsOf_le hfromParty, length_textsOf_le htoParty,
      length_textsOf_le hfromService, length_textsOf_le htoService, length_textsOf_le hproperties,
      fun _ hnil => absurd hnil List.not_mem_nil⟩
  rintro (hnil | ⟨name, hname, htwice⟩)
  · rw [readMember_of_missing hnil] at hid
    cases hid
  · have := honce name hname
    omega

/-! ## Files -/

/-- The last name of the path is something, a dot and `json` in letters of any case. -/
def HasJsonExtension (p : Path) : Prop :=
  ∃ stem extension, p.name? = some (stem ++ "." ++ extension) ∧ stem ≠ "" ∧
    extension.toList.map Char.toLower = "json".toList

/-- The path is that of a JSON file, and the file has the text. -/
structure IsJsonFile (t : FileTree) (p : Path) (text : List Char) : Prop where
  extension : HasJsonExtension p
  content : t.contentOf p = .ok (utf8 (String.ofList text))

theorem isJsonPath_of_hasJsonExtension {p : Path} (h : HasJsonExtension p) : isJsonPath p = true := by
  obtain ⟨stem, extension, hname, hstem, hlower⟩ := h
  have hlength : extension.toList.length = 4 := by
    rw [← List.length_map Char.toLower, hlower]
    rfl
  have hnodot : ∀ c ∈ extension.toList.reverse, (c != '.') = true := by
    intro c hc
    have hmem : c.toLower ∈ "json".toList :=
      hlower ▸ List.mem_map_of_mem (List.mem_reverse.1 hc)
    rw [bne_iff_ne]
    rintro rfl
    revert hmem
    decide
  have hchars : (stem ++ "." ++ extension).toList = stem.toList ++ '.' :: extension.toList := by simp
  have hafter : ((stem ++ "." ++ extension).toList.reverse.takeWhile (· != '.')).reverse =
      extension.toList := by
    rw [hchars, List.reverse_append, List.reverse_cons, List.append_assoc,
      List.takeWhile_append_of_pos hnodot]
    simp
  have hlong : extension.toList.length + 1 < (stem ++ "." ++ extension).toList.length := by
    have hpos : stem.toList ≠ [] := by simpa using hstem
    have := List.length_pos_iff.2 hpos
    rw [hchars, List.length_append, List.length_cons]
    omega
  have hdots : stem ++ "." ++ extension ≠ ".." := by
    intro heq
    rw [heq] at hlong
    simp [hlength] at hlong
  have hextension : p.extension? = some extension := by
    rw [Path.extension?, hname]
    simp only [hafter, beq_iff_eq, hdots, Nat.not_le.2 hlong, Bool.or_eq_true, decide_eq_true_eq,
      or_self, if_false, String.ofList_toList]
  rw [isJsonPath, hextension]
  simp [hlower]

variable {t : FileTree} {p : Path} {text : List Char}

/-- What is loaded from a JSON file is what its text is read as. -/
theorem load_of_isJsonFile (h : IsJsonFile t p text) :
    load t p = match ofJson? (String.ofList text) with
      | none => .error (.unparsable .envelope p)
      | some m => .ok m := by
  have htext : t.textOf p = .ok (String.ofList text) := by
    rw [FileTree.textOf, h.content]
    simp only [ofUtf8?_utf8]
  rw [load, FileTree.readDocument, htext, if_pos (isJsonPath_of_hasJsonExtension h.extension)]
  cases hread : ofJson? (String.ofList text) with
  | none => simp only [hread]
  | some m => simp only [hread]

theorem ofJson?_of_isObject (h : IsObject ms text)
    (hvalues : ∀ e ∈ ms, ReadsAs e.2 (valueOf e.2)) :
    ofJson? (String.ofList text) = messageOfMembers? (readMembers ms) := by
  rw [ofJson?, (h.reads hvalues).read?_eq]
  rfl

theorem GivesText.reads {text : String} {s : List Char} (h : GivesText name ms text)
    (hs : s ∈ textsOf name ms) : ReadsAs s (valueOf s) := by
  rcases h with ⟨s', hone, hspells⟩ | ⟨hnil, -⟩
  · obtain rfl := List.mem_singleton.1 (hone ▸ hs)
    exact hspells.isValue.reads
  · exact absurd (hnil ▸ hs) List.not_mem_nil

/-- Every value of an object that describes a message is read, those of other names as well. -/
theorem Describes.reads (h : Describes ms m) : ∀ e ∈ ms, ReadsAs e.2 (valueOf e.2) := by
  intro e he
  by_cases hname : e.1 ∈ memberNames
  · have hmem : e.2 ∈ textsOf e.1 ms :=
      List.mem_map_of_mem (List.mem_filter.2 ⟨he, beq_self_eq_true _⟩)
    simp only [memberNames, List.mem_cons, List.not_mem_nil, or_false] at hname
    rcases hname with hname | hname | hname | hname | hname | hname <;> rw [hname] at hmem
    · exact GivesText.reads (Or.inl h.id) hmem
    · exact h.fromParty.reads hmem
    · exact h.toParty.reads hmem
    · exact h.fromService.reads hmem
    · exact h.toService.reads hmem
    · rcases h.properties with hone | ⟨hnil, -⟩
      · obtain heq := List.mem_singleton.1 (hone ▸ hmem)
        have hproperties := reads_ofProperties m.properties
        rwa [heq, hproperties.valueOf_eq]
      · exact absurd (hnil ▸ hmem) List.not_mem_nil
  · exact (h.others e he hname).reads

theorem load_of_describes (hfile : IsJsonFile t p text) (hobject : IsObject ms text)
    (h : Describes ms m) : load t p = .ok m := by
  rw [load_of_isJsonFile hfile, ofJson?_of_isObject hobject h.reads, messageOfMembers?_of_describes h]

theorem load_of_lacksOrRepeats (hfile : IsJsonFile t p text) (hobject : IsObject ms text)
    (hvalues : ∀ e ∈ ms, IsValue e.2) (h : LacksOrRepeats ms) :
    load t p = .error (.unparsable .envelope p) := by
  have hnone : messageOfMembers? (readMembers ms) = none :=
    Option.eq_none_iff_forall_ne_some.2 fun m hm => not_lacksOrRepeats hm h
  rw [load_of_isJsonFile hfile, ofJson?_of_isObject hobject fun e he => (hvalues e he).reads, hnone]

/-- **An envelope is read back as the message it describes.** The members of a message may stand in any
order, with other members anywhere among them. They may also be spelled and spaced in any other way, and
those that are empty may be left out. Without an id, or with a second value for one of the six names,
the file is refused. -/
theorem envelopes_read_back (hfile : IsJsonFile t p text) :
    (∀ (m : Message) (others ms : List (String × List Char)), AreOthers others →
      ms.Perm (m.members ++ others) → text = braced (ms.map fun e => member e.1 e.2) →
        load t p = .ok m) ∧
    (∀ (m : Message) (ms : List (String × List Char)), IsObject ms text → Describes ms m →
      load t p = .ok m) ∧
    ∀ ms : List (String × List Char), IsObject ms text → (∀ e ∈ ms, IsValue e.2) →
      LacksOrRepeats ms → load t p = .error (.unparsable .envelope p) := by
  refine ⟨fun m others ms hothers hperm htext => ?_, fun m ms => load_of_describes hfile,
    fun ms => load_of_lacksOrRepeats hfile⟩
  have hobject : IsObject ms text := htext ▸ isObject_braced ms
  exact load_of_describes hfile hobject (describes_of_perm hothers hperm)

/-- A message with a quote and a control character in its id, and a namespace without names. -/
def oddMessage : Message where
  id := "a\"\x00"
  toParty := "é"
  properties := ⟨TextMap.empty.insert "n" .empty⟩

/-- A value with a number, an object in an array and half of a surrogate pair. -/
def oddValue : List Char := "[1.5e3 ,\x7b\"a\":\"\\ud800\"\x7d]".toList

theorem areOthers_oddValue : AreOthers [("note", oddValue)] := by
  have hnumber : IsNumber "1.5e3".toList :=
    ⟨[], ['1'], ['.', '5'], ['e', '3'], rfl, Or.inl rfl,
      Or.inr ⟨⟨by decide, by simp⟩, by decide⟩, Or.inr ⟨['5'], rfl, by decide, by simp⟩,
      Or.inr ⟨'e', [], ['3'], rfl, Or.inl rfl, Or.inl rfl, by decide, by simp⟩⟩
  have hhalf : IsString "\"\\ud800\"".toList [.unit 0xD800] :=
    ⟨_, rfl, .unit (Or.inl (by decide : _[13]? = _)) (Or.inl (by decide : _[8]? = _))
      (Or.inl (by decide : _[0]? = _)) (Or.inl (by decide : _[0]? = _)) .nil⟩
  have hname : IsString "\"a\"".toList [.char 'a'] :=
    ⟨['a'], rfl, .plain (by decide) (by decide) (by decide) .nil⟩
  have hobject : IsValue ('\x7b' :: ("\"a\"".toList ++ ':' :: "\"\\ud800\"".toList ++ ['\x7d'])) :=
    .object (.member hname (padded_self _) (.string hhalf) (padded_self _))
  have hvalue : IsValue oddValue :=
    .array (.moreItems (.item (.number hnumber) ⟨[], [' '], gap_nil, gap_singleton (by decide), rfl⟩)
      (.item hobject (padded_self _)))
  intro e he
  obtain rfl := List.mem_singleton.1 he
  exact ⟨by decide, hvalue⟩

/-- The members of the message from the last one to the first, with the other value in front. -/
def oddText : List Char :=
  braced ((("note", oddValue) :: oddMessage.members.reverse).map fun e => member e.1 e.2)

/-- An id and nothing else, with escapes in the name and in the value and with gaps. -/
def shortText : List Char := "\x7b \"\\u0069d\":\n\"\\ud83D\\ude00\" \x7d".toList

/-- An envelope with two ids. -/
def twiceText : List Char := "\x7b\"id\":\"a\",\"id\":\"a\"\x7d".toList

/-- The three texts as files. -/
def envelopeTree : FileTree where
  entries := [(["odd.JSON"], .file (utf8 (String.ofList oddText))),
    (["short.json"], .file (utf8 (String.ofList shortText))),
    (["twice.Json"], .file (utf8 (String.ofList twiceText)))]

/-- The id is written with escapes, and the other members are left out. -/
theorem isObject_shortText :
    ∃ s, IsObject [("id", s)] shortText ∧ Describes [("id", s)] { id := "😀" } := by
  have hname : Spells "\"\\u0069d\"".toList "id" :=
    ⟨[.unit 0x69, .char 'd'],
      ⟨_, rfl, .unit (Or.inl (by decide : _[0]? = _)) (Or.inl (by decide : _[0]? = _))
        (Or.inl (by decide : _[6]? = _)) (Or.inl (by decide : _[9]? = _))
        (.plain (by decide) (by decide) (by decide) .nil)⟩,
      .unit (by decide) (.char 'd' .nil)⟩
  have hid : Spells "\"\\ud83D\\ude00\"".toList "😀" :=
    ⟨[.unit 0xD83D, .unit 0xDE00],
      ⟨_, rfl, .unit (Or.inl (by decide : _[13]? = _)) (Or.inl (by decide : _[8]? = _))
        (Or.inl (by decide : _[3]? = _)) (Or.inr (by decide : _[13]? = _))
        (.unit (Or.inl (by decide : _[13]? = _)) (Or.inl (by decide : _[14]? = _))
          (Or.inl (by decide : _[0]? = _)) (Or.inl (by decide : _[0]? = _)) .nil)⟩,
      .pair (by decide) (by decide) (by decide) .nil⟩
  have hbefore : Padded "\"\\u0069d\"".toList " \"\\u0069d\"".toList :=
    ⟨[' '], [], gap_singleton (by decide), gap_nil, rfl⟩
  have hafter : Padded "\"\\ud83D\\ude00\"".toList "\n\"\\ud83D\\ude00\" ".toList :=
    ⟨['\n'], [' '], gap_singleton (by decide), gap_singleton (by decide), rfl⟩
  refine ⟨_, ⟨_, padded_self _, Or.inr (.one hname hbefore hafter)⟩, ?_⟩
  refine ⟨⟨_, rfl, hid⟩, Or.inr ⟨rfl, rfl⟩, Or.inr ⟨rfl, rfl⟩, Or.inr ⟨rfl, rfl⟩,
    Or.inr ⟨rfl, rfl⟩, Or.inr ⟨rfl, rfl⟩, fun e he hother => ?_⟩
  obtain rfl := List.mem_singleton.1 he
  exact absurd (by decide) hother

/-- The odd message among other members, the short envelope by a path that begins with a dot, and the
envelope with two ids. -/
theorem envelopes_read_back_from_tree :
    (IsJsonFile envelopeTree ⟨"odd.JSON"⟩ oddText ∧
      load envelopeTree ⟨"odd.JSON"⟩ = .ok oddMessage) ∧
    (IsJsonFile envelopeTree ⟨"./short.json"⟩ shortText ∧
      load envelopeTree ⟨"./short.json"⟩ = .ok { id := "😀" }) ∧
    IsJsonFile envelopeTree ⟨"twice.Json"⟩ twiceText ∧
      load envelopeTree ⟨"twice.Json"⟩ = .error (.unparsable .envelope ⟨"twice.Json"⟩) := by
  have hodd : IsJsonFile envelopeTree ⟨"odd.JSON"⟩ oddText :=
    ⟨⟨"odd", "JSON", by decide, by decide, by decide⟩,
      FileTree.contentOf_of_locate (by decide : _ = Except.ok ["odd.JSON"]) rfl⟩
  have hshort : IsJsonFile envelopeTree ⟨"./short.json"⟩ shortText :=
    ⟨⟨"short", "json", by decide, by decide, by decide⟩,
      FileTree.contentOf_of_locate (by decide : _ = Except.ok ["short.json"]) rfl⟩
  have htwice : IsJsonFile envelopeTree ⟨"twice.Json"⟩ twiceText :=
    ⟨⟨"twice", "Json", by decide, by decide, by decide⟩,
      FileTree.contentOf_of_locate (by decide : _ = Except.ok ["twice.Json"]) rfl⟩
  have hperm : (("note", oddValue) :: oddMessage.members.reverse).Perm
      (oddMessage.members ++ [("note", oddValue)]) :=
    ((List.reverse_perm _).cons _).trans (List.perm_append_singleton _ _).symm
  obtain ⟨s, hobject, hdescribes⟩ := isObject_shortText
  have hids : ∀ e ∈ [("id", quote "a"), ("id", quote "a")], IsValue e.2 := by
    intro e he
    obtain rfl : e = ("id", quote "a") := by simpa using he
    exact (spells_quote "a").isValue
  exact ⟨⟨hodd, (envelopes_read_back hodd).1 _ _ _ areOthers_oddValue hperm rfl⟩,
    ⟨hshort, (envelopes_read_back hshort).2.1 _ _ hobject hdescribes⟩,
    htwice, (envelopes_read_back htwice).2.2 _ (isObject_braced _) hids
      (Or.inr ⟨"id", by decide, by decide⟩)⟩

end MessageArchive.Message
