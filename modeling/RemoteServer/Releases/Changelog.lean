import RemoteServer.Fallible
import RemoteServer.Releases.Record

/-!
# `CHANGELOG.md`

The release manager writes one section of `CHANGELOG.md` for every version, from the subjects and
the bodies of the commits, and it reads the section again for the notes of the Release.

* `renderChangelog` writes a section, with the commits in four categories.
* `automaticVersion` chooses the next version from the same commits.
* `extractNotes` and `managedReleaseBody` make the body of the draft Release.

The regular expressions of the script match line by line, so that each of them is a function of a
line here.
-/

namespace RemoteServer.Releases

open PyStd

/-- A commit as `release_commits` reads it. -/
structure Commit where
  sha : String
  subject : Text
  body : Text
deriving DecidableEq

/-! ## Conventional commits -/

/-- `[a-zA-Z0-9_-]` -/
def isWordChar (c : Char) : Bool := c.isAlphanum || c == '_' || c == '-'

/-- The text after `(?:\([^)]*\))?`.  What follows the group never starts with a parenthesis. -/
def afterScope : Text → Option Text
  | '(' :: rest =>
    match rest.dropWhile (· != ')') with
    | [] => none
    | _ :: rest => some rest
  | rest => some rest

/-- `^[a-zA-Z0-9_-]+(?:\([^)]*\))?!:` -/
def isBreaking (subject : Text) : Bool :=
  !(subject.takeWhile isWordChar).isEmpty &&
    (afterScope (subject.dropWhile isWordChar)).any fun rest => "!:".toList.isPrefixOf rest

/-- `^type(?:\([^)]*\))?:` -/
def isType (type : String) (subject : Text) : Bool :=
  type.toList.isPrefixOf subject &&
    (afterScope (subject.drop type.toList.length)).any fun rest => ":".toList.isPrefixOf rest

/-- `^BREAKING[ -]CHANGE:` in a line. -/
def hasBreakingNote (body : Text) : Bool :=
  (lines body).any fun line =>
    "BREAKING CHANGE:".toList.isPrefixOf line || "BREAKING-CHANGE:".toList.isPrefixOf line

inductive Category where
  | breaking
  | features
  | fixes
  | other
deriving DecidableEq

namespace Category

def heading : Category → String
  | breaking => "Breaking changes"
  | features => "Features"
  | fixes => "Fixes"
  | other => "Other changes"

/-- The order of the sections. -/
def all : List Category := [breaking, features, fixes, other]

end Category

/-- The category of a commit in `render_changelog`. -/
def Commit.category (commit : Commit) : Category :=
  let subject := strip commit.subject
  if isBreaking subject || hasBreakingNote commit.body then .breaking
  else if isType "feat" subject then .features
  else if isType "fix" subject || isType "security" subject then .fixes
  else .other

/-! ## Sections -/

/-- The text of a date, `[0-9]{4}-[0-9]{2}-[0-9]{2}`. -/
def isDate (text : Text) : Bool :=
  match text with
  | [a, b, c, d, '-', e, f, '-', g, h] => [a, b, c, d, e, f, g, h].all Char.isDigit
  | _ => false

/-- The date of a commit in ISO form. -/
structure Date where
  text : Text
  valid : isDate text = true

def sectionStart : Text := "## [".toList

/-- `## [version] -`, the start of the heading of a version. -/
def headingStart (version : String) : Text := sectionStart ++ version.toList ++ "] -".toList

/-- The heading of a section. -/
def heading (version : String) (date : Date) : Text :=
  headingStart version ++ ' ' :: date.text

def Commit.entry (commit : Commit) : Text :=
  "- ".toList ++ strip commit.subject ++ " (`".toList ++ commit.sha.toList.take 12 ++ "`)".toList

/-- The commits of one category. -/
def inCategory (category : Category) (commits : List Commit) : List Commit :=
  commits.filter fun commit => commit.category == category

/-- The lines of a category that has commits. -/
def categoryLines (commits : List Commit) (category : Category) : List Text :=
  if (inCategory category commits).isEmpty then []
  else [[], "### ".toList ++ category.heading.toList, []] ++
    (inCategory category commits).map Commit.entry

/-- The lines of a section. -/
def sectionLines (version : String) (date : Date) (commits : List Commit) : List Text :=
  heading version date :: Category.all.flatMap (categoryLines commits)

/-- The version in a line that is the heading of a section. -/
def headingVersion (line : Text) : Option String :=
  let version := (line.drop sectionStart.length).takeWhile (· != ']')
  let date := line.drop (headingStart (String.ofList version)).length
  if sectionStart.isPrefixOf line && (parseSemver version).isSome && isDate (date.drop 1) &&
      line == headingStart (String.ofList version) ++ ' ' :: date.drop 1 then
    some (String.ofList version)
  else none

/-- `changelog_baseline`. -/
def changelogBaseline (contents : Text) : Except String (Option String) :=
  let versions := (lines contents).filterMap headingVersion
  if ¬versions.Nodup then .error "CHANGELOG.md contains duplicate stable release sections"
  else .ok versions.head?

/-- `release_commits` of a base: the commits after the tag of a baseline. -/
abbrev ReleaseLog := Option String → Except String (List Commit)

def changelogStart : Text := "# Changelog\n".toList

/-- What stands below the heading of the file. -/
def remainder (existing : Text) : Text :=
  (existing.drop changelogStart.length).dropWhile (· == '\n')

/-- The file with a new section. -/
def updatedChangelog (existing : Text) (version : String) (date : Date) (commits : List Commit) :
    Text :=
  changelogStart ++ '\n' :: joinLines (sectionLines version date commits) ++ '\n' ::
    if (remainder existing).isEmpty then [] else '\n' :: remainder existing

/-- `render_changelog`: the new contents of the file. -/
def renderChangelog (file : Option Text) (version : String) (date : Date) (log : ReleaseLog) :
    Except String Text := do
  let existing := file.getD changelogStart
  if !changelogStart.isPrefixOf existing then
    .error "CHANGELOG.md must start with one Changelog heading"
  else if (lines existing).any fun line => (headingStart version).isPrefixOf line then
    .error ("CHANGELOG.md already records v" ++ version)
  else do
    let baseline ← changelogBaseline existing
    let commits ← log baseline
    if commits.isEmpty then .error "release history contains no unreleased commits"
    else return updatedChangelog existing version date commits

/-! ## The next version -/

/-- The version after a version, from the commits since. -/
def nextVersion (previous : Version) (commits : List Commit) : Version :=
  if commits.any fun commit => isBreaking commit.subject || hasBreakingNote commit.body then
    Version.mk (previous.major + 1) 0 0
  else if commits.any fun commit => isType "feat" commit.subject then
    Version.mk previous.major (previous.minor + 1) 0
  else Version.mk previous.major previous.minor (previous.patch + 1)

/-- `automatic_version`. -/
def automaticVersion (releases : List Release) (log : ReleaseLog) :
    Except String (Option String) := do
  let completed ← completedReleases releases
  match completed.getLast? with
  | none => return some "1.0.0"
  | some (previous, release) =>
    if !isSha release.targetCommitish then
      .error "latest completed release has an invalid target commit"
    else do
      let commits ← log (some (versionText previous))
      if commits.isEmpty then return none
      else return some (versionText (nextVersion previous commits))

/-! ## The notes of a version -/

/-- The section of a version in the lines of the file, up to the next section.  The heading has a
line feed after it. -/
def findSection (version : String) : List Text → Option Text
  | [] => none
  | line :: rest =>
    if (headingStart version ++ [' ']).isPrefixOf line &&
        decide ((headingStart version).length + 1 < line.length) && !rest.isEmpty then
      some (strip (joinLines (line :: rest.takeWhile fun line => !sectionStart.isPrefixOf line)))
    else findSection version rest

/-- What the regular expression of `managed_release_body` finds, without the blanks around. -/
def extractNotes (version : String) (changelog : Text) : Option Text :=
  findSection version (lines changelog)

/-- `managed_release_body`. -/
def managedReleaseBody (changelog : Text) (version sha : String) (number : Nat) :
    Except String Text :=
  match extractNotes version changelog with
  | none => .error ("unable to extract v" ++ version ++ " release notes")
  | some notes =>
    .ok (notes ++ '\n' :: '\n' :: ("Publication remains incomplete until all immutable assets " ++
      "and registry references pass public readback.").toList ++ '\n' :: '\n' ::
      prMarker number ++ '\n' :: commitMarker sha ++ ['\n'])

end RemoteServer.Releases
