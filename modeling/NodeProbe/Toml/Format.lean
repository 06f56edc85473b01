import NodeProbe.Toml.Reader
import NodeProbe.Toml.Writer

/-!
# TOML as a format of documents

A reader of settings does not see how a table came to be. It takes an array in place of a section
for the settings in their order, and a date for a section without any.
-/
namespace NodeProbe.Toml

mutual

def datum : Toml → Datum
  | .string s => .text s
  | .integer n => .integer n
  | .float _ => .float
  | .boolean b => .flag b
  | .moment _ => .moment
  | .array items => .array (itemData items)
  | .table _ fields => .table (fieldData fields)
  | .tables elements => .array (elementData elements)

def itemData : List Toml → List Datum
  | [] => []
  | v :: vs => v.datum :: itemData vs

def fieldData : Fields → Datum.Fields
  | [] => []
  | (key, v) :: fs => (key, v.datum) :: fieldData fs

def elementData : List Fields → List Datum
  | [] => []
  | fields :: elements => .table (fieldData fields) :: elementData elements

end

def settings? (keys : List String) : Datum → Option Datum.Fields
  | .array items => some (keys.zip items)
  | .moment => some []
  | _ => none

def format : DocumentFormat where
  write := write
  read text := (read text).map fieldData
  settings? := settings?

end NodeProbe.Toml
