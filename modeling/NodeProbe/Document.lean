import NodeProbe.Number.Word

/-!
# Documents of settings

What is kept in a file is a document: settings, and behind them sections of settings. How a
document is written and read is up to a format, of which only one thing is asked: that a plain
document is read back as it was written.
-/
namespace NodeProbe

open Number

/-- A value as a reader finds it. -/
inductive Datum where
  | text (s : String)
  | integer (n : Int64)
  | float
  | flag (b : Bool)
  | moment
  | array (items : List Datum)
  | table (fields : List (String × Datum))

abbrev Datum.Fields := List (String × Datum)

/-- A value as a writer is given it. -/
inductive Setting where
  | text (s : String)
  | size (n : UInt64)
  | flag (b : Bool)

abbrev Settings := List (String × Setting)

namespace Setting

def datum : Setting → Datum
  | text s => .text s
  | size n => .integer n.toInt64
  | flag b => .flag b

/-- Sizes have to be integers of 64 signed bits. -/
def fits : Setting → Bool
  | size n => n.toNat ≤ maxInt64
  | _ => true

end Setting

namespace Settings

def fields (settings : Settings) : Datum.Fields := settings.map fun s => (s.1, s.2.datum)

def fits (settings : Settings) : Bool := settings.all (·.2.fits)

end Settings

structure Document where
  settings : Settings := []
  sections : List (String × Settings) := []

namespace Document

def fields (d : Document) : Datum.Fields :=
  d.settings.fields ++ d.sections.map fun s => (s.1, .table s.2.fields)

def keys (d : Document) : List String := d.settings.map (·.1) ++ d.sections.map (·.1)

def fits (d : Document) : Bool := d.settings.fits && d.sections.all (·.2.fits)

end Document

/-- A key of ASCII letters, digits, dashes and underscores. -/
structure BareKey (key : String) : Prop where
  nonempty : key.toList.isEmpty = false
  bare : key.toList.all (fun c => c.isAlphanum || c == '-' || c == '_') = true

instance : DecidablePred BareKey := fun _ =>
  decidable_of_iff (_ ∧ _) ⟨fun h => ⟨h.1, h.2⟩, fun h => ⟨h.nonempty, h.bare⟩⟩

/-- A document without repeated or quoted keys, all of whose sizes fit. -/
structure Document.Plain (d : Document) : Prop where
  fits : d.fits = true
  keys : d.keys.Nodup
  bare : ∀ key ∈ d.keys, BareKey key
  sectionKeys : ∀ s ∈ d.sections, (s.2.map (·.1)).Nodup
  sectionBare : ∀ s ∈ d.sections, ∀ key ∈ s.2.map (·.1), BareKey key

/-- A format of documents. -/
structure DocumentFormat where
  /-- The text of a document, or the reason why there is none. -/
  write : Document → Except String String
  /-- The table that a text describes. -/
  read : String → Option Datum.Fields
  /-- What stands in for a section that is not a table. The section says which settings it knows,
  in their order. -/
  settings? : List String → Datum → Option Datum.Fields

/-- A plain document is written, and what was written is read as the same settings. -/
def DocumentFormat.ReadsBack (format : DocumentFormat) : Prop :=
  ∀ d : Document, d.Plain → ∃ text, format.write d = .ok text ∧ format.read text = some d.fields

end NodeProbe
