import MessageArchive.Proofs.Template.Grammar
import MessageArchive.Proofs.Template.Sweep
import MessageArchive.Settings

set_option autoImplicit false

/-! # Templates behind one another

Two templates that resolve, written one behind the other, resolve to their names one behind the
other, unless a token begins in the first and ends in the second (`TokenSpans`). The sweep for
tokens goes through the one and then through the other (`scan_append`). The texts that it leaves
have a decomposition each, and a decomposition of the joined text is made of the two: the last
stretch of the first runs into the first stretch of the second (`Decomposition.append`).

An extension stands behind a dot, and no token has a dot in it. So an extension cannot change what
the template before it means, nor the template what the extension means.
-/

namespace MessageArchive.Template

open MessageArchive.Text

/-! ## References and dates -/

namespace Decomposition

/-- The second decomposition behind the first. -/
def append (d d' : Decomposition) : Decomposition :=
  Layout.append (Layout.append (· ++ ·)) d d'

variable {d d' : Decomposition} {text text' : List Char} {policy : MissingProperty}
  {context : Context} {now : Calendar.Moment}

theorem Reads.append (h : d.Reads text) (h' : d'.Reads text') :
    (d.append d').Reads (text ++ text') := by
  have hwrite : ∀ s t, writeDates (Layout.append (· ++ ·) s t) = writeDates s ++ writeDates t :=
    Layout.fill_append fun _ _ => rfl
  refine ⟨?_, ?_, ?_, ?_, ?_⟩
  · rw [← h.written, ← h'.written]
    exact Layout.fill_append hwrite d d'
  · refine Layout.forall_stretches_append (fun s t hs ht => ?_) h.noBracketOpens h'.noBracketOpens
    rw [hwrite, List.mem_append, not_or]
    exact ⟨hs, ht⟩
  · intro b hb
    rw [Decomposition.append, Layout.bodies_append] at hb
    exact (List.mem_append.1 hb).elim (h.noBracketCloses b) (h'.noBracketCloses b)
  · refine Layout.forall_stretches_append (fun s t hs ht => ?_) h.noBraceOpens h'.noBraceOpens
    refine Layout.forall_stretches_append (fun u v hu hv => ?_) hs ht
    rw [List.mem_append, not_or]
    exact ⟨hu, hv⟩
  · refine Layout.forall_stretches_append (fun s t hs ht p hp => ?_) h.noBraceCloses
      h'.noBraceCloses
    rw [Layout.bodies_append] at hp
    exact (List.mem_append.1 hp).elim (hs p) (ht p)

theorem Resolves.append (h : d.Resolves policy context now) (h' : d'.Resolves policy context now) :
    (d.append d').Resolves policy context now := by
  refine ⟨fun b hb => ?_, ?_⟩
  · rw [Decomposition.append, Layout.bodies_append] at hb
    exact (List.mem_append.1 hb).elim (h.references b) (h'.references b)
  · refine Layout.forall_stretches_append (fun s t hs ht p hp => ?_) h.dates h'.dates
    rw [Layout.bodies_append] at hp
    exact (List.mem_append.1 hp).elim (hs p) (ht p)

theorem name_append (context : Context) (now : Calendar.Moment) (d d' : Decomposition) :
    (d.append d').name context now = d.name context now ++ d'.name context now :=
  Layout.fill_append (Layout.fill_append fun _ _ => rfl) d d'

end Decomposition

/-! ## Whole templates -/

section

variable {policy : MissingProperty} {context : Context} {now : Calendar.Moment}

theorem resolve_append {a b x y : String} (hborder : ¬ TokenSpans a.toList b.toList)
    (ha : (resolve policy a context now).result = .ok x)
    (hb : (resolve policy b context now).result = .ok y) :
    (resolve policy (a ++ b) context now).result = .ok (x ++ y) := by
  obtain ⟨d, hd, hresolves, rfl⟩ := resolve_result_iff.1 ha
  obtain ⟨d', hd', hresolves', rfl⟩ := resolve_result_iff.1 hb
  refine resolve_result_iff.2 ⟨d.append d', ?_, hresolves.append hresolves', ?_⟩
  · rw [String.toList_append, withTokens_append hborder]
    exact hd.append hd'
  · rw [Decomposition.name_append, String.ofList_append]

theorem resolve_dot : (resolve policy "." context now).result = .ok "." := by
  refine resolve_result_iff.2 ⟨.last (.last ['.']), ⟨rfl, ?_, ?_, ?_, ?_⟩, ⟨?_, ?_⟩, rfl⟩
  all_goals simp [Layout.stretches, Layout.bodies, writeDates, Layout.write, Layout.fill]

/-- No token has a dot in it. -/
theorem dot_not_mem_spelling (k : Token) : '.' ∉ k.spelling := by
  cases k <;> decide

theorem not_tokenSpans_dot_cons (a b : List Char) : ¬ TokenSpans a ('.' :: b) := by
  intro hspans
  obtain ⟨k, c, hc, hhead⟩ := hspans.exists_head?
  obtain rfl : '.' = c := Option.some.inj hhead
  exact dot_not_mem_spelling k hc

theorem not_tokenSpans_append_dot (a b : List Char) : ¬ TokenSpans (a ++ ['.']) b := by
  intro hspans
  obtain ⟨k, c, hc, hlast⟩ := hspans.exists_getLast?
  obtain rfl : '.' = c := by simpa using hlast
  exact dot_not_mem_spelling k hc

/-- Behind a dot an extension means what it means on its own, and so does the template before it. -/
theorem resolve_extension {name extension x y : String}
    (hname : (resolve policy name context now).result = .ok x)
    (hextension : (resolve policy extension context now).result = .ok y) :
    (resolve policy (name ++ "." ++ extension) context now).result = .ok (x ++ "." ++ y) := by
  have hdot : (resolve policy (name ++ ".") context now).result = .ok (x ++ ".") :=
    resolve_append (not_tokenSpans_dot_cons name.toList []) hname resolve_dot
  refine resolve_append ?_ hdot hextension
  rw [String.toList_append]
  exact not_tokenSpans_append_dot name.toList extension.toList

end

/-- **Resolution goes through joined templates one by one.** Two templates that resolve, with no
token across the border between them, resolve together to their names one behind the other. Between
the name template of an archive and its extension there is a dot, so there the border does not
matter. -/
theorem resolution_is_compositional (policy : MissingProperty) (context : Context)
    (now : Calendar.Moment) :
    (∀ a b x y : String, ¬ TokenSpans a.toList b.toList →
      (resolve policy a context now).result = .ok x →
      (resolve policy b context now).result = .ok y →
      (resolve policy (a ++ b) context now).result = .ok (x ++ y)) ∧
    ∀ (s : Settings) (x y : String), s.extension ≠ "" →
      (resolve policy s.fileName context now).result = .ok x →
      (resolve policy s.extension context now).result = .ok y →
      (resolve policy s.template context now).result = .ok (x ++ "." ++ y) := by
  refine ⟨fun a b x y hborder ha hb => resolve_append hborder ha hb,
    fun s x y hextension hname hresolved => ?_⟩
  have htemplate : s.template = s.fileName ++ "." ++ s.extension := by
    rw [Settings.template, if_neg (by simpa using hextension)]
  rw [htemplate]
  exact resolve_extension hname hresolved

/-- The first template ends with a per cent sign and the second begins with a token; the name
template ends with two characters of a token and the extension begins with the third. -/
theorem resolution_is_compositional_at_percent :
    (¬ TokenSpans "[ns/a]%".toList "%id".toList ∧
      (resolve .empty "[ns/a]%" (Message.context { id := "m" }) ⟨⟨0, 0⟩, .utc⟩).result =
        .ok "%" ∧
      (resolve .empty "%id" (Message.context { id := "m" }) ⟨⟨0, 0⟩, .utc⟩).result = .ok "m" ∧
      (resolve .empty ("[ns/a]%" ++ "%id") (Message.context { id := "m" }) ⟨⟨0, 0⟩, .utc⟩).result =
        .ok ("%" ++ "m")) ∧
    (resolve .empty "%id%i" (Message.context { id := "m" }) ⟨⟨0, 0⟩, .utc⟩).result = .ok "m%i" ∧
    (resolve .empty "d]%id" (Message.context { id := "m" }) ⟨⟨0, 0⟩, .utc⟩).result = .ok "d]m" ∧
    (resolve .empty (Settings.template ⟨⟨"d"⟩, "%id%i", "d]%id", 0, .empty⟩)
      (Message.context { id := "m" }) ⟨⟨0, 0⟩, .utc⟩).result = .ok ("m%i" ++ "." ++ "d]m") := by
  have h := resolution_is_compositional .empty (Message.context { id := "m" }) ⟨⟨0, 0⟩, .utc⟩
  refine ⟨⟨by decide, by cbv, by cbv, ?_⟩, by cbv, by cbv, ?_⟩
  · exact h.1 _ _ _ _ (by decide) (by cbv) (by cbv)
  · exact h.2 ⟨⟨"d"⟩, "%id%i", "d]%id", 0, .empty⟩ _ _ (by decide) (by cbv) (by cbv)

-- With a token across the border the two templates are one.
example : TokenSpans "%i".toList "d".toList ∧
    (resolve .empty ("%i" ++ "d") (Message.context { id := "m" }) ⟨⟨0, 0⟩, .utc⟩).result =
      .ok "m" := ⟨by decide, by cbv⟩

end MessageArchive.Template
