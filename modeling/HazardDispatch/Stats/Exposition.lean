import HazardDispatch.Stats.Metrics

/-!
# Metrics as text

The text form that monitoring systems read: families of samples, each with a help line and a type
line. Numbers are written with the fewest digits that read back and never with an exponent; a
missing figure is `NaN`.
-/

namespace HazardDispatch.Exposition

def amountFormat : Decimal.Numeral.Format := ⟨.up, none, false⟩

def amount (x : Float) : String :=
  match Decimal.Numeral.ofFloat? amountFormat x with
  | some n => String.ofList n.text
  | none => if x.isNaN then "NaN" else if x < 0 then "-inf" else "inf"

def figure (x : Option Float) : String := (x.map amount).getD "NaN"

/-- A family of samples with one label. -/
structure Family where
  name : String
  help : String
  kind : String
  label : String
  samples : List (String × String)

/-- The lines of a family. -/
def Family.text (f : Family) : String :=
  let sample := fun ((value, amount) : String × String) =>
    f.name ++ "\x7b" ++ f.label ++ "=\"" ++ value ++ "\"\x7d " ++ amount ++ "\n"
  "# HELP " ++ f.name ++ " " ++ f.help ++ "\n" ++ "# TYPE " ++ f.name ++ " " ++ f.kind ++ "\n" ++
    String.join (f.samples.map sample)

/-- A family with one sample for each operation. -/
def ofOperations (name help kind : String) (read : OperationStats Float → String)
    (t : Table Operation (OperationStats Float)) : Family :=
  { name, help, kind, label := "operation"
    samples := t.entries.map fun (op, s) => (op.name, read s) }

def operationFamilies (t : Table Operation (OperationStats Float)) : List Family :=
  [ofOperations "quakerun_task_duration_seconds_count"
      "Successful task attempts by operation" "counter" (fun s => amount (.ofNat s.count)) t,
    ofOperations "quakerun_task_duration_seconds_sum"
      "Total successful task time by operation" "counter" (fun s => amount s.total) t,
    ofOperations "quakerun_task_duration_seconds_mean"
      "Mean task duration by operation" "gauge" (fun s => figure s.mean) t,
    ofOperations "quakerun_task_duration_seconds_stddev"
      "Sample standard deviation of task duration (NaN below two samples)" "gauge"
      (fun s => figure s.stddev) t,
    ofOperations "quakerun_task_duration_seconds_min"
      "Fastest task duration by operation" "gauge" (fun s => figure s.least) t,
    ofOperations "quakerun_task_duration_seconds_max"
      "Slowest task duration by operation" "gauge" (fun s => figure s.greatest) t,
    ofOperations "quakerun_task_peak_memory_mb"
      "Largest reported peak memory by operation" "gauge" (fun s => amount s.maxMemory) t,
    ofOperations "quakerun_task_failures_total"
      "Failed task attempts by operation" "counter" (fun s => amount (.ofNat s.failures)) t]

def operations (m : Metrics Float) : String :=
  String.join ((operationFamilies m.snapshot).map Family.text)

end HazardDispatch.Exposition
