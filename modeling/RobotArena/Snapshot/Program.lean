import RobotArena.External.Signature
import RobotArena.Program
import RobotArena.Snapshot.Basic

/-!
# Snapshots of programs
-/

namespace RobotArena

/-- A diagnostic: its range and parts, and the text that people see. -/
def Diagnostic.snapshot (d : Diagnostic) : Json :=
  .record [
    ("range", .list .nat
      [d.range.start.line, d.range.start.column, d.range.stop.line, d.range.stop.column]),
    ("severity", .text d.severity.word), ("message", .text d.message),
    ("display", .text d.render)]

/-- An instruction: its fields, its text and its bytes. -/
def Instruction.snapshot (i : Instruction) : Json :=
  .record [("op", .text i.op.mnemonic), ("a", .nat i.a.toNat), ("b", .nat i.b.toNat),
    ("c", .nat i.c.toNat), ("imm", .int i.imm.toInt), ("display", .text i.render),
    ("bytes", Snapshot.bytes i.encode)]

/-- A signature, with the sizes of its blocks in words. -/
def Signature.snapshot (s : Signature) : Json :=
  .record [("id", .nat s.id.toNat), ("name", .text s.name), ("arg", .nat s.argSize.toNat),
    ("ret", .nat s.retSize.toNat), ("arg_words", .nat s.argWords), ("ret_words", .nat s.retWords)]

/-- The bytes of each instruction. -/
def Bytecode.snapshot (code : Bytecode) : Json :=
  .list (fun i => Snapshot.bytes (code.bytes.extract (8 * i) (8 * i + 8)).toList)
    (List.range code.length)

/-- A file number and a line. -/
def Origin.snapshot (o : Origin) : Json :=
  .list .nat [o.file.toNat, o.line]

/-- The members of a program's snapshot. -/
def Program.members (p : Program) : List (String × Json) :=
  [("code", p.code.snapshot), ("files", .list .text p.debug.files),
    ("lines", .list Origin.snapshot p.debug.origins.toList),
    ("diagnostics", .list Diagnostic.snapshot p.diagnostics)]

end RobotArena
