import TypeCatalog.Json.Reader
import TypeCatalog.Json.Writer
import TypeCatalog.Outcome
import TypeCatalog.Schema.TypeDescription

/-! # Validating records

A list of records is valid when every record conforms to the schema and no two have the same
qualified name. A record is judged as it is read back from its JSON text. Each record that repeats a
name is reported as a duplicate, whether or not it or the earlier record conforms; of the other
records those that do not conform are reported. -/

namespace TypeCatalog

/-- What is wrong with a record, known by its qualified name. -/
inductive RecordFault where
  | duplicate (key : String)
  | nonconforming (key : String)
  deriving DecidableEq, Repr

/-- The qualified name of a record as plain text. -/
def recordKey (record : Json) : String := ((record.member? "fqn").getD .null).plainText

/-- A record as it is read back from its text, if it conforms to the schema. -/
def conformingCopy? (record : Json) : Option Json :=
  (Json.read? record.write).filter Schema.typeRecord.conforms

/-- What validating records gives after records with the given keys. -/
def outcomesAfter (seen : List String) : List Json → List (Except (Option RecordFault) (Option Json))
  | [] => []
  | record :: rest =>
      let key := recordKey record
      if seen.contains key then .error (some (.duplicate key)) :: outcomesAfter seen rest
      else
        let outcome := match conformingCopy? record with
          | some copy => .ok (some copy)
          | none => .error (some (.nonconforming key))
        outcome :: outcomesAfter (key :: seen) rest

/-- The records as they are read back when nothing is wrong with them, else all their faults in
order. -/
def validate (records : List Json) : Except (List RecordFault) (List Json) :=
  gather (outcomesAfter [] records)

end TypeCatalog
