import ReferenceDraws.Failure

/-!
# Provenance

Who made an artifact, when, and with which versions of which tools.
-/

namespace ReferenceDraws

/-- The origin of an artifact. -/
structure Provenance where
  /-- A remark. -/
  comments : String
  /-- A person or a tool. -/
  addedBy : String
  /-- A calendar date, `YYYY-MM-DD`. -/
  addedDate : String
  /-- Versions by component, in the order in which they came in. -/
  versions : OrderedMap String String
deriving DecidableEq, Inhabited

namespace Provenance

/-- The remark on references that nothing else is said about. -/
def defaultComments : String := "Generated by pdbref for models lacking posteriordb references"

/-- Who adds references unless a name is given. -/
def defaultAddedBy : String := "pdbref reference generator"

/-- The version of this program. -/
def programVersion : String := "0.1.0"

/-- The provenance of an artifact made by this program on a date and a platform. -/
def current (today platform : String) : Provenance where
  comments := defaultComments
  addedBy := defaultAddedBy
  addedDate := today
  versions := .ofList [("pdbref_version", programVersion), ("platform", platform)]

/-- Replaces the author. -/
def withAddedBy (p : Provenance) (name : String) : Provenance := { p with addedBy := name }

/-- Records a version, or replaces the one of a component. -/
def withVersion (p : Provenance) (component version : String) : Provenance :=
  { p with versions := p.versions.insert component version }

/-! ## JSON -/

/-- A provenance as a value. -/
def toJson (p : Provenance) : Json :=
  .object [("comments", .string p.comments), ("added_by", .string p.addedBy),
    ("added_date", .string p.addedDate), ("versions", .ofOrderedMap .string p.versions)]

/-- How a provenance is read. -/
def record : Json.RecordDecoder Provenance :=
  (Json.RecordDecoder.map Provenance.mk (.required "comments" Json.Decoder.string))
    |>.and (.required "added_by" Json.Decoder.string)
    |>.and (.required "added_date" Json.Decoder.string)
    |>.and (.required "versions" (Json.Decoder.orderedMap Json.Decoder.string))

/-- Reads a provenance. -/
def decode : Json.Decoder Provenance := record.read "Provenance"

end Provenance

end ReferenceDraws
