import ShellStyle.Json
import ShellStyle.Report

/-! The report as a JSON document: the verdicts in order, then the counts. Fields stand in
alphabetical order. -/
namespace ShellStyle

def Verdict.toJson (v : Verdict) : Json :=
  .object [
    ("check", .string v.check),
    ("file", .string v.file),
    ("folder", .string v.folder),
    ("message", .string v.message),
    ("passed", .bool v.passed)]

namespace Report

def toJson (r : Report) : Json :=
  .object [
    ("results", .array (r.verdicts.map Verdict.toJson)),
    ("summary", .object [
      ("checks", .number r.verdicts.length),
      ("failures", .number r.failures.length),
      ("files", .number r.files),
      ("passed", .bool r.passed),
      ("passingFiles", .number r.cleanFiles)])]

def document (r : Report) : String := r.toJson.render

end Report

end ShellStyle
