import MessageArchive.Audit
import MessageArchive.Template.Reference
import MessageArchive.Template.Token

set_option autoImplicit false

/-! # Resolving templates

A template becomes a name in three passes:

1. fixed tokens are replaced (`substitute`),
2. each `[namespace/name]` is replaced by the value of a property (`resolveReferences`),
3. each `{pattern}` is replaced by the moment of resolution (`resolveDates`).

Each pass is done with before the next one begins. The text that a pass puts in for a reference
or a date is not looked at again: the second pass hands on the template as a list of segments,
and the third pass only looks into those that are template text.
-/

namespace MessageArchive.Template

open MessageArchive.Audit MessageArchive.Text

/-- What is done about a property that is not set. -/
inductive MissingProperty where
  /-- The reference becomes the empty text. -/
  | empty
  /-- The template cannot be resolved. -/
  | fail
  deriving DecidableEq, Repr

/-- A stretch of a name in the making. -/
inductive Segment where
  /-- Text of the template, in which dates are still to be replaced. -/
  | template (text : List Char)
  /-- The value of a property, which stays as it is. -/
  | value (text : List Char)
  deriving DecidableEq, Repr

/-- Looks up the property a reference names. -/
def lookup (policy : MissingProperty) (context : Context) (r : Reference) :
    Traced (List Char) := do
  Traced.record (.propertyFound r.space r.name)
  match context.property r.space r.name, policy with
  | some value, _ =>
      Traced.record (.propertyValue value)
      return value.toList
  | none, .empty =>
      Traced.record (.propertyValue "")
      return []
  | none, .fail =>
      Traced.record (.propertyUnset r.name)
      Traced.fail (.unresolved r.space r.name)

/-- The value of the reference in a pair of brackets. -/
def resolveReference (policy : MissingProperty) (context : Context) (body : List Char) :
    Traced (List Char) :=
  match Reference.parse (trim body) with
  | .error e => Traced.fail e
  | .ok reference => lookup policy context reference

/-- Replaces the references in a text that is cut at its brackets, from left to right. -/
def resolveReferences (policy : MissingProperty) (context : Context) :
    Pieces → Traced (List Segment)
  | .last text => return [.template text]
  | .unclosed => Traced.fail (.malformed (.unclosed ']'))
  | .more text body rest => do
      let value ← resolveReference policy context body
      let segments ← resolveReferences policy context rest
      return .template text :: .value value :: segments

/-- The date in a pair of braces. -/
def resolveDate (now : Calendar.Moment) (body : List Char) : Traced (List Char) := do
  let pattern := trim body
  Traced.record (.dateFound (String.ofList pattern))
  match Calendar.formatDate pattern now with
  | .ok text => return text
  | .error fault => Traced.fail (.malformed (.datePattern (String.ofList pattern) fault))

/-- Replaces the dates in a text that is cut at its braces, from left to right. -/
def resolveDatesIn (now : Calendar.Moment) : Pieces → Traced (List Char)
  | .last text => return text
  | .unclosed => Traced.fail (.malformed (.unclosed '\x7d'))
  | .more text body rest => do
      let date ← resolveDate now body
      let following ← resolveDatesIn now rest
      return text ++ date ++ following

/-- Replaces the dates in each segment that is template text, and joins the segments. -/
def resolveDates (now : Calendar.Moment) : List Segment → Traced (List Char)
  | [] => return []
  | .value text :: rest => do
      let following ← resolveDates now rest
      return text ++ following
  | .template text :: rest => do
      let resolved ← resolveDatesIn now (Pieces.ofText '\x7b' '\x7d' text)
      let following ← resolveDates now rest
      return resolved ++ following

/-- The template with its fixed tokens replaced. -/
def withTokens (context : Context) (now : Calendar.Moment) (template : List Char) : List Char :=
  substitute (Token.value context now) template

/-- Resolves a template whose fixed tokens are replaced. -/
def resolveText (policy : MissingProperty) (context : Context) (now : Calendar.Moment)
    (text : List Char) : Traced (List Char) := do
  let segments ← resolveReferences policy context (Pieces.ofText '[' ']' text)
  resolveDates now segments

/-- The name a template gives for a message at a moment. -/
def resolve (policy : MissingProperty) (template : String) (context : Context)
    (now : Calendar.Moment) : Traced String := do
  let name ← resolveText policy context now (withTokens context now template.toList)
  return String.ofList name

end MessageArchive.Template
