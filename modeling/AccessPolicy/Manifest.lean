import AccessPolicy.Json.Text
import AccessPolicy.Text.Sha256

/-!
# Manifests

A manifest wraps the document of a policy set with a tag that is computed from
its compact text, so that a change to the document shows.
-/

namespace AccessPolicy
namespace Manifest

def version : String := "1.0"

def tag (document : Json) : String := Sha256.digest document.compact

def wrap (document : Json) : Json :=
  .object [("etag", .string (tag document)), ("ir", document), ("spl", .string version)]

inductive Fault where
  | missingField (name : String)
  | unsupportedVersion (found : String)
  | tagMismatch (found computed : String)
  | tagNotText
deriving DecidableEq

def Fault.message : Fault → String
  | .missingField name => "manifest missing required field: '" ++ name ++ "'"
  | .unsupportedVersion found => "unsupported manifest version: '" ++ found ++ "'"
  | .tagMismatch found computed =>
    "etag mismatch: manifest says " ++ found ++ ", content hashes to " ++ computed
  | .tagNotText => "manifest etag must be a string"

def versionFaults (manifest : Json) : List Fault :=
  match (manifest.field? "spl").bind Json.asString? with
  | some found => if found = version then [] else [.unsupportedVersion found]
  | none => [.missingField "spl"]

def tagFaults (manifest document : Json) : List Fault :=
  let computed := tag document
  match (manifest.field? "etag").bind Json.asString? with
  | some found => if found = computed then [] else [.tagMismatch found computed]
  | none => [.tagNotText]

/-- Everything that is wrong with a manifest. One without a document is not
looked at further. -/
def check (manifest : Json) : List Fault :=
  match manifest.field? "ir" with
  | none => [.missingField "ir"]
  | some document => versionFaults manifest ++ tagFaults manifest document

/-- Is a document a manifest? It is if it has a tag. -/
def isManifest (doc : Json) : Bool := (doc.field? "etag").isSome

/-- The document that a manifest wraps, null if there is none; any other
document is its own content. -/
def content (doc : Json) : Json :=
  if isManifest doc then (doc.field? "ir").getD .null else doc

end Manifest
end AccessPolicy
