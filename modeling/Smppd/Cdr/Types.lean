/-
  CALL DETAIL RECORDS (`src/cdr/types.rs`), and their lines in a CSV file.

  A field is put between quotes when it has a comma, a quote or a line feed in it, and its quotes are doubled.
  These are the marks of the format, and so nothing is misread (`csv_lossless`); a carriage return is none of
  them, and stands for itself.

  A text is the list of its characters.
-/
import Smppd.Lib.Csv

set_option linter.unusedVariables false

namespace Smppd

open Csv

/-- Type of CDR record. -/
inductive CdrType where
  /-- Message submission (MT). -/
  | submit
  /-- Delivery receipt. -/
  | delivery
  | mobileOriginated
  /-- Query response. -/
  | query
  deriving DecidableEq

/-- `{:?}`. -/
def CdrType.debug : CdrType → String
  | .submit => "Submit"
  | .delivery => "Delivery"
  | .mobileOriginated => "MobileOriginated"
  | .query => "Query"

/-- Call Detail Record, as far as it is read here. -/
structure Cdr where
  cdrType : CdrType
  /-- Unique message ID. -/
  messageId : String
  /-- From upstream. -/
  smscMessageId : Option String := none
  /-- RFC3339. -/
  timestamp : String
  /-- ESME/system ID. -/
  esmeId : String
  sourceAddr : String
  destAddr : String
  /-- In bytes. -/
  messageLength : UInt32 := 0
  segments : UInt32 := 1
  /-- Route/cluster used. -/
  route : Option String := none
  endpoint : Option String := none
  deliveryStatus : Option String := none
  /-- SMPP status code. -/
  statusCode : UInt32 := 0
  latencyMs : Option UInt64 := none
  /-- In smallest currency unit. -/
  cost : Option Int64 := none
  /-- In smallest currency unit. -/
  revenue : Option Int64 := none
  /-- ISO 4217. -/
  currency : Option String := none
  countryCode : Option String := none
  network : Option String := none
  deriving DecidableEq

namespace Cdr

/-- `Cdr::submit`: create a new submission CDR. -/
def submit (now messageId esmeId sourceAddr destAddr : String) : Cdr :=
  { cdrType := .submit, messageId, timestamp := now, esmeId, sourceAddr, destAddr }

/-- `Cdr::delivery`: create a delivery CDR. -/
def delivery (now messageId smscMessageId status : String) : Cdr :=
  { submit now messageId "" "" "" with
    cdrType := .delivery, smscMessageId := some smscMessageId, deliveryStatus := some status }

/-- `with_pricing`. -/
def withPricing (cost revenue : Int64) (currency : String) (self : Cdr) : Cdr :=
  { self with cost := some cost, revenue := some revenue, currency := some currency }

/-- The fields of a line. -/
def csvFields (self : Cdr) : List String :=
  [self.cdrType.debug,
    self.messageId,
    self.smscMessageId.getD "",
    self.timestamp,
    self.esmeId,
    self.sourceAddr,
    self.destAddr,
    toString self.messageLength,
    toString self.segments,
    self.route.getD "",
    self.endpoint.getD "",
    self.deliveryStatus.getD "",
    toString self.statusCode,
    (self.latencyMs.map fun l => toString l).getD "",
    (self.cost.map fun c => toString c).getD "",
    (self.revenue.map fun r => toString r).getD "",
    self.currency.getD "",
    self.countryCode.getD "",
    self.network.getD ""]

/-- Escape commas and quotes. -/
def csvField (f : List Char) : List Char :=
  if ',' ∈ f ∨ '"' ∈ f ∨ '\n' ∈ f then '"' :: ((f.flatMap fun c => if c = '"' then ['"', '"'] else [c]) ++ ['"'])
  else f

/-- `to_csv_line`: convert to CSV line. -/
def toCsvLine (self : Cdr) : List Char := [','].intercalate (self.csvFields.map fun f => csvField f.toList)

/-- `csv_header`: one text, cut into pieces. -/
def csvHeader : List Char :=
  "type,message_id,smsc_message_id,".toList ++ "timestamp,esme_id,source_addr,".toList ++
    "dest_addr,message_length,".toList ++ "segments,route,endpoint,".toList ++
    "delivery_status,status_code,".toList ++ "latency_ms,cost,revenue,".toList ++
    "currency,country_code,network".toList

/-! ## The format -/

/-- Comma separated values, ended by line feeds. -/
def csv : Dialect Char where
  separator := ','
  quote := '"'
  terminator := '\n'
  separator_ne_quote := by decide
  terminator_ne_quote := by decide
  terminator_ne_separator := by decide

/-- The names of the fields, in their order. -/
def csvNames : List String :=
  ["type", "message_id", "smsc_message_id", "timestamp", "esme_id", "source_addr", "dest_addr", "message_length",
    "segments", "route", "endpoint", "delivery_status", "status_code", "latency_ms", "cost", "revenue", "currency",
    "country_code", "network"]

/-- The lines of records, each ended by a line feed. -/
def csvText (cdrs : List Cdr) : List Char := cdrs.flatMap fun cdr => cdr.toCsvLine ++ ['\n']

/-- The fields of a record, as texts. -/
def csvTexts (self : Cdr) : List (List Char) := self.csvFields.map String.toList

theorem toCsvLine_eq (cdr : Cdr) : cdr.toCsvLine = encodeRecord csv cdr.csvTexts := by
  rw [toCsvLine, encodeRecord, csvTexts, List.map_map]
  rfl

theorem csvText_eq (cdrs : List Cdr) : csvText cdrs = encode csv (cdrs.map csvTexts) := by
  rw [csvText, encode, List.flatMap_map]
  simp only [toCsvLine_eq]
  rfl

/-- The header is a line of fields that need no quotes. -/
theorem csvHeader_eq : csvHeader ++ ['\n'] = encode csv [csvNames.map String.toList] := by
  decide +kernel

/-- A field that consists of marks: quotes, a separator, a line feed. -/
example : decode csv (csvField "\",\n".toList ++ [',', '\n']) = some [["\",\n".toList, []]] := by decide

end Cdr

end Smppd
