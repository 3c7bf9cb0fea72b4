/-
# Remotes

The host, the owner and the name in the address of a remote repository. An address is a
web address, one of `ssh`, or the short form `user@host:owner/name`; an ending `.git`
does not belong to the name.
-/

import CodeSurvey.Pattern

namespace CodeSurvey

/-- Where a remote repository is. -/
structure Remote where
  host : String
  owner : String
  name : String
  deriving DecidableEq, Repr

namespace Remote

open Pattern in
/-- The form of an address. -/
def form : Pattern :=
  let isNameChar (c : Char) : Bool := Text.isWord c || c == '.' || c == '-'
  all
    [optional (words ["https://", "http://", "ssh://"]),
      optional (seq (some1 (char fun c => c != '@' && c != '/')) (one '@')),
      capture 1 (some1 (char fun c => c != ':' && c != '/')), char (fun c => c == ':' || c == '/'),
      capture 2 (some1 (char isNameChar)), one '/', capture 3 (fewest1 (char isNameChar)),
      optional (word ".git"), optional (one '/'), textEnd]

/-- The remote at an address. -/
def ofAddress? (address : String) : Option Remote := do
  let found ← form.matchStart? address.toList
  return ⟨String.ofList (← found.group? 1), String.ofList (← found.group? 2),
    String.ofList (← found.group? 3)⟩

/-- The full name of a repository. -/
def fullName (r : Remote) : String := r.owner ++ "/" ++ r.name

/-- The web address of a repository. -/
def url (r : Remote) : String := "https://" ++ r.host ++ "/" ++ r.owner ++ "/" ++ r.name

/-- What the metadata of a snapshot tells about a remote. -/
def metadata (r : Remote) : List (String × String) := [("full_name", r.fullName), ("url", r.url)]

end Remote
end CodeSurvey
