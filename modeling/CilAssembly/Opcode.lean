/-!
The CIL instruction set: every opcode with its mnemonic, and the classes of opcodes that the label
resolver, the peephole window and the arithmetic emitters tell apart.
-/
namespace CilAssembly

/-- A CIL opcode. `branchOrLeave` stands for a jump whose final form, `br` or `leave`, is only known
once every label of the unit is placed; all others are machine instructions. -/
inductive Opcode
  | nop | breakpoint | ldarg_0 | ldarg_1 | ldarg_2 | ldarg_3 | ldloc_0 | ldloc_1 | ldloc_2
  | ldloc_3 | stloc_0 | stloc_1 | stloc_2 | stloc_3 | ldargS | ldargaS | stargS | ldlocS | ldlocaS
  | stlocS | ldnull | ldcI4M1 | ldcI4_0 | ldcI4_1 | ldcI4_2 | ldcI4_3 | ldcI4_4 | ldcI4_5
  | ldcI4_6 | ldcI4_7 | ldcI4_8 | ldcI4S | ldcI4 | ldcI8 | ldcR4 | ldcR8 | dup | pop | jmp | call
  | calli | ret | brS | brfalseS | brtrueS | beqS | bgeS | bgtS | bleS | bltS | bneUnS | br
  | brfalse | brtrue | beq | bge | bgt | ble | blt | bneUn | bgeUn | bgtUn | bleUn | bltUn
  | switch | ldindI1 | ldindU1 | ldindI2 | ldindU2 | ldindI4 | ldindU4 | ldindI8 | ldindI
  | ldindR4 | ldindR8 | ldindRef | stindRef | stindI1 | stindI2 | stindI4 | stindI8 | stindR4
  | stindR8 | stindI | add | sub | mul | div | divUn | rem | remUn | and | or | xor | shl | shr
  | shrUn | neg | not | convI1 | convI2 | convI4 | convI8 | convR4 | convR8 | convU4 | convU8
  | convU2 | convU1 | convI | convU | convRUn | convOvfI1 | convOvfU1 | convOvfI2 | convOvfU2
  | convOvfI4 | convOvfU4 | convOvfI8 | convOvfU8 | convOvfI | convOvfU | convOvfI1Un
  | convOvfU1Un | convOvfI2Un | convOvfU2Un | convOvfI4Un | convOvfU4Un | convOvfI8Un
  | convOvfU8Un | convOvfIUn | convOvfUUn | callvirt | cpobj | ldobj | ldstr | newobj | castclass
  | isinst | unbox | throw | ldfld | ldflda | stfld | ldsfld | ldsflda | stsfld | stobj | box
  | newarr | ldlen | ldelema | ldelemI1 | ldelemU1 | ldelemI2 | ldelemU2 | ldelemI4 | ldelemU4
  | ldelemI8 | ldelemI | ldelemR4 | ldelemR8 | ldelemRef | stelemI | stelemI1 | stelemI2
  | stelemI4 | stelemI8 | stelemR4 | stelemR8 | stelemRef | addOvf | addOvfUn | mulOvf | mulOvfUn
  | subOvf | subOvfUn | endfinally | leave | leaveS | ldtoken | ceq | cgt | cgtUn | clt | cltUn
  | ldftn | ldvirtftn | ldarg | ldarga | starg | ldloc | ldloca | stloc | localloc | endfilter
  | volatile | tail | initobj | cpblk | initblk | rethrow | sizeof | branchOrLeave
  deriving DecidableEq, Repr, Inhabited

namespace Opcode

/-- Every opcode, in the order of the instruction table. -/
def all : List Opcode :=
  [.nop, .breakpoint, .ldarg_0, .ldarg_1, .ldarg_2, .ldarg_3, .ldloc_0, .ldloc_1, .ldloc_2,
   .ldloc_3, .stloc_0, .stloc_1, .stloc_2, .stloc_3, .ldargS, .ldargaS, .stargS, .ldlocS,
   .ldlocaS, .stlocS, .ldnull, .ldcI4M1, .ldcI4_0, .ldcI4_1, .ldcI4_2, .ldcI4_3, .ldcI4_4,
   .ldcI4_5, .ldcI4_6, .ldcI4_7, .ldcI4_8, .ldcI4S, .ldcI4, .ldcI8, .ldcR4, .ldcR8, .dup, .pop,
   .jmp, .call, .calli, .ret, .brS, .brfalseS, .brtrueS, .beqS, .bgeS, .bgtS, .bleS, .bltS,
   .bneUnS, .br, .brfalse, .brtrue, .beq, .bge, .bgt, .ble, .blt, .bneUn, .bgeUn, .bgtUn, .bleUn,
   .bltUn, .switch, .ldindI1, .ldindU1, .ldindI2, .ldindU2, .ldindI4, .ldindU4, .ldindI8, .ldindI,
   .ldindR4, .ldindR8, .ldindRef, .stindRef, .stindI1, .stindI2, .stindI4, .stindI8, .stindR4,
   .stindR8, .stindI, .add, .sub, .mul, .div, .divUn, .rem, .remUn, .and, .or, .xor, .shl, .shr,
   .shrUn, .neg, .not, .convI1, .convI2, .convI4, .convI8, .convR4, .convR8, .convU4, .convU8,
   .convU2, .convU1, .convI, .convU, .convRUn, .convOvfI1, .convOvfU1, .convOvfI2, .convOvfU2,
   .convOvfI4, .convOvfU4, .convOvfI8, .convOvfU8, .convOvfI, .convOvfU, .convOvfI1Un,
   .convOvfU1Un, .convOvfI2Un, .convOvfU2Un, .convOvfI4Un, .convOvfU4Un, .convOvfI8Un,
   .convOvfU8Un, .convOvfIUn, .convOvfUUn, .callvirt, .cpobj, .ldobj, .ldstr, .newobj, .castclass,
   .isinst, .unbox, .throw, .ldfld, .ldflda, .stfld, .ldsfld, .ldsflda, .stsfld, .stobj, .box,
   .newarr, .ldlen, .ldelema, .ldelemI1, .ldelemU1, .ldelemI2, .ldelemU2, .ldelemI4, .ldelemU4,
   .ldelemI8, .ldelemI, .ldelemR4, .ldelemR8, .ldelemRef, .stelemI, .stelemI1, .stelemI2,
   .stelemI4, .stelemI8, .stelemR4, .stelemR8, .stelemRef, .addOvf, .addOvfUn, .mulOvf, .mulOvfUn,
   .subOvf, .subOvfUn, .endfinally, .leave, .leaveS, .ldtoken, .ceq, .cgt, .cgtUn, .clt, .cltUn,
   .ldftn, .ldvirtftn, .ldarg, .ldarga, .starg, .ldloc, .ldloca, .stloc, .localloc, .endfilter,
   .volatile, .tail, .initobj, .cpblk, .initblk, .rethrow, .sizeof, .branchOrLeave]

/-- The assembler spelling of an opcode. -/
def mnemonic : Opcode → String
  | .nop => "nop"
  | .breakpoint => "break"
  | .ldarg_0 => "ldarg.0"
  | .ldarg_1 => "ldarg.1"
  | .ldarg_2 => "ldarg.2"
  | .ldarg_3 => "ldarg.3"
  | .ldloc_0 => "ldloc.0"
  | .ldloc_1 => "ldloc.1"
  | .ldloc_2 => "ldloc.2"
  | .ldloc_3 => "ldloc.3"
  | .stloc_0 => "stloc.0"
  | .stloc_1 => "stloc.1"
  | .stloc_2 => "stloc.2"
  | .stloc_3 => "stloc.3"
  | .ldargS => "ldarg.s"
  | .ldargaS => "ldarga.s"
  | .stargS => "starg.s"
  | .ldlocS => "ldloc.s"
  | .ldlocaS => "ldloca.s"
  | .stlocS => "stloc.s"
  | .ldnull => "ldnull"
  | .ldcI4M1 => "ldc.i4.m1"
  | .ldcI4_0 => "ldc.i4.0"
  | .ldcI4_1 => "ldc.i4.1"
  | .ldcI4_2 => "ldc.i4.2"
  | .ldcI4_3 => "ldc.i4.3"
  | .ldcI4_4 => "ldc.i4.4"
  | .ldcI4_5 => "ldc.i4.5"
  | .ldcI4_6 => "ldc.i4.6"
  | .ldcI4_7 => "ldc.i4.7"
  | .ldcI4_8 => "ldc.i4.8"
  | .ldcI4S => "ldc.i4.s"
  | .ldcI4 => "ldc.i4"
  | .ldcI8 => "ldc.i8"
  | .ldcR4 => "ldc.r4"
  | .ldcR8 => "ldc.r8"
  | .dup => "dup"
  | .pop => "pop"
  | .jmp => "jmp"
  | .call => "call"
  | .calli => "calli"
  | .ret => "ret"
  | .brS => "br.s"
  | .brfalseS => "brfalse.s"
  | .brtrueS => "brtrue.s"
  | .beqS => "beq.s"
  | .bgeS => "bge.s"
  | .bgtS => "bgt.s"
  | .bleS => "ble.s"
  | .bltS => "blt.s"
  | .bneUnS => "bne.un.s"
  | .br => "br"
  | .brfalse => "brfalse"
  | .brtrue => "brtrue"
  | .beq => "beq"
  | .bge => "bge"
  | .bgt => "bgt"
  | .ble => "ble"
  | .blt => "blt"
  | .bneUn => "bne.un"
  | .bgeUn => "bge.un"
  | .bgtUn => "bgt.un"
  | .bleUn => "ble.un"
  | .bltUn => "blt.un"
  | .switch => "switch"
  | .ldindI1 => "ldind.i1"
  | .ldindU1 => "ldind.u1"
  | .ldindI2 => "ldind.i2"
  | .ldindU2 => "ldind.u2"
  | .ldindI4 => "ldind.i4"
  | .ldindU4 => "ldind.u4"
  | .ldindI8 => "ldind.i8"
  | .ldindI => "ldind.i"
  | .ldindR4 => "ldind.r4"
  | .ldindR8 => "ldind.r8"
  | .ldindRef => "ldind.ref"
  | .stindRef => "stind.ref"
  | .stindI1 => "stind.i1"
  | .stindI2 => "stind.i2"
  | .stindI4 => "stind.i4"
  | .stindI8 => "stind.i8"
  | .stindR4 => "stind.r4"
  | .stindR8 => "stind.r8"
  | .stindI => "stind.i"
  | .add => "add"
  | .sub => "sub"
  | .mul => "mul"
  | .div => "div"
  | .divUn => "div.un"
  | .rem => "rem"
  | .remUn => "rem.un"
  | .and => "and"
  | .or => "or"
  | .xor => "xor"
  | .shl => "shl"
  | .shr => "shr"
  | .shrUn => "shr.un"
  | .neg => "neg"
  | .not => "not"
  | .convI1 => "conv.i1"
  | .convI2 => "conv.i2"
  | .convI4 => "conv.i4"
  | .convI8 => "conv.i8"
  | .convR4 => "conv.r4"
  | .convR8 => "conv.r8"
  | .convU4 => "conv.u4"
  | .convU8 => "conv.u8"
  | .convU2 => "conv.u2"
  | .convU1 => "conv.u1"
  | .convI => "conv.i"
  | .convU => "conv.u"
  | .convRUn => "conv.r.un"
  | .convOvfI1 => "conv.ovf.i1"
  | .convOvfU1 => "conv.ovf.u1"
  | .convOvfI2 => "conv.ovf.i2"
  | .convOvfU2 => "conv.ovf.u2"
  | .convOvfI4 => "conv.ovf.i4"
  | .convOvfU4 => "conv.ovf.u4"
  | .convOvfI8 => "conv.ovf.i8"
  | .convOvfU8 => "conv.ovf.u8"
  | .convOvfI => "conv.ovf.i"
  | .convOvfU => "conv.ovf.u"
  | .convOvfI1Un => "conv.ovf.i1.un"
  | .convOvfU1Un => "conv.ovf.u1.un"
  | .convOvfI2Un => "conv.ovf.i2.un"
  | .convOvfU2Un => "conv.ovf.u2.un"
  | .convOvfI4Un => "conv.ovf.i4.un"
  | .convOvfU4Un => "conv.ovf.u4.un"
  | .convOvfI8Un => "conv.ovf.i8.un"
  | .convOvfU8Un => "conv.ovf.u8.un"
  | .convOvfIUn => "conv.ovf.i.un"
  | .convOvfUUn => "conv.ovf.u.un"
  | .callvirt => "callvirt"
  | .cpobj => "cpobj"
  | .ldobj => "ldobj"
  | .ldstr => "ldstr"
  | .newobj => "newobj"
  | .castclass => "castclass"
  | .isinst => "isinst"
  | .unbox => "unbox"
  | .throw => "throw"
  | .ldfld => "ldfld"
  | .ldflda => "ldflda"
  | .stfld => "stfld"
  | .ldsfld => "ldsfld"
  | .ldsflda => "ldsflda"
  | .stsfld => "stsfld"
  | .stobj => "stobj"
  | .box => "box"
  | .newarr => "newarr"
  | .ldlen => "ldlen"
  | .ldelema => "ldelema"
  | .ldelemI1 => "ldelem.i1"
  | .ldelemU1 => "ldelem.u1"
  | .ldelemI2 => "ldelem.i2"
  | .ldelemU2 => "ldelem.u2"
  | .ldelemI4 => "ldelem.i4"
  | .ldelemU4 => "ldelem.u4"
  | .ldelemI8 => "ldelem.i8"
  | .ldelemI => "ldelem.i"
  | .ldelemR4 => "ldelem.r4"
  | .ldelemR8 => "ldelem.r8"
  | .ldelemRef => "ldelem.ref"
  | .stelemI => "stelem.i"
  | .stelemI1 => "stelem.i1"
  | .stelemI2 => "stelem.i2"
  | .stelemI4 => "stelem.i4"
  | .stelemI8 => "stelem.i8"
  | .stelemR4 => "stelem.r4"
  | .stelemR8 => "stelem.r8"
  | .stelemRef => "stelem.ref"
  | .addOvf => "add.ovf"
  | .addOvfUn => "add.ovf.un"
  | .mulOvf => "mul.ovf"
  | .mulOvfUn => "mul.ovf.un"
  | .subOvf => "sub.ovf"
  | .subOvfUn => "sub.ovf.un"
  | .endfinally => "endfinally"
  | .leave => "leave"
  | .leaveS => "leave.s"
  | .ldtoken => "ldtoken"
  | .ceq => "ceq"
  | .cgt => "cgt"
  | .cgtUn => "cgt.un"
  | .clt => "clt"
  | .cltUn => "clt.un"
  | .ldftn => "ldftn"
  | .ldvirtftn => "ldvirtftn"
  | .ldarg => "ldarg"
  | .ldarga => "ldarga"
  | .starg => "starg"
  | .ldloc => "ldloc"
  | .ldloca => "ldloca"
  | .stloc => "stloc"
  | .localloc => "localloc"
  | .endfilter => "endfilter"
  | .volatile => "volatile."
  | .tail => "tail."
  | .initobj => "initobj"
  | .cpblk => "cpblk"
  | .initblk => "initblk"
  | .rethrow => "rethrow"
  | .sizeof => "sizeof"
  | .branchOrLeave => "br.or.leave"

/-- The opcode that a mnemonic spells. -/
def ofMnemonic? (s : String) : Option Opcode :=
  all.find? (·.mnemonic == s)

/-- The tag of an opcode in structural dumps: the dot-separated parts of the mnemonic, capitalised.
The tag of `branchOrLeave` spells its first word out. -/
def tag (op : Opcode) : String :=
  match op with
  | .branchOrLeave => "BranchOrLeave"
  | op => String.join ((op.mnemonic.splitOn ".").map String.capitalize)

/-- The opcode lives in the two-byte part of the instruction table. -/
def isTwoByte : Opcode → Bool
  | .ceq | .cgt | .cgtUn | .clt | .cltUn | .ldftn | .ldvirtftn | .ldarg | .ldarga | .starg
  | .ldloc | .ldloca | .stloc | .localloc | .endfilter | .volatile | .tail | .initobj | .cpblk
  | .initblk | .rethrow | .sizeof => true
  | _ => false

/-- The opcode has no encoding of its own and must be resolved before the listing is final. -/
def isPseudo (op : Opcode) : Bool :=
  op = .branchOrLeave

/-- The opcode always transfers control to its target. -/
def isUnconditionalBranch : Opcode → Bool
  | .br | .brS | .leave | .leaveS | .branchOrLeave => true
  | _ => false

/-- The opcode transfers control to its target when its condition holds. -/
def isConditionalBranch : Opcode → Bool
  | .brfalseS | .brtrueS | .beqS | .bgeS | .bgtS | .bleS | .bltS | .bneUnS | .brfalse | .brtrue
  | .beq | .bge | .bgt | .ble | .blt | .bneUn | .bgeUn | .bgtUn | .bleUn | .bltUn => true
  | _ => false

/-- The opcode takes one label as its operand. -/
def isBranch (op : Opcode) : Bool :=
  op.isUnconditionalBranch || op.isConditionalBranch

/-- The opcode is one of the `ldc.i4` forms. -/
def isInt32Constant : Opcode → Bool
  | .ldcI4M1 | .ldcI4_0 | .ldcI4_1 | .ldcI4_2 | .ldcI4_3 | .ldcI4_4 | .ldcI4_5 | .ldcI4_6
  | .ldcI4_7 | .ldcI4_8 | .ldcI4S | .ldcI4 => true
  | _ => false

/-- The opcode pushes one value and does nothing else, so that popping the value undoes it. -/
def isPureLoad : Opcode → Bool
  | .ldarg_0 | .ldarg_1 | .ldarg_2 | .ldarg_3 | .ldargS | .ldarg | .ldargaS | .ldarga | .ldloc_0
  | .ldloc_1 | .ldloc_2 | .ldloc_3 | .ldlocS | .ldloc | .ldlocaS | .ldloca | .ldnull | .ldstr
  | .ldcR4 | .ldcR8 | .ldcI8 => true
  | op => op.isInt32Constant

/-- The opcode is a plain conversion, one that never traps. -/
def isConversion : Opcode → Bool
  | .convI1 | .convI2 | .convI4 | .convI8 | .convR4 | .convR8 | .convU1 | .convU2 | .convU4
  | .convU8 | .convI | .convU => true
  | _ => false

/-- The trapping variant of an arithmetic or conversion opcode, for signed or for unsigned operands.
Every other opcode stands for itself. -/
def overflowChecked : Opcode → (unsigned : Bool) → Opcode
  | .add, false => .addOvf
  | .add, true => .addOvfUn
  | .sub, false => .subOvf
  | .sub, true => .subOvfUn
  | .mul, false => .mulOvf
  | .mul, true => .mulOvfUn
  | .convI1, false => .convOvfI1
  | .convI1, true => .convOvfI1Un
  | .convU1, false => .convOvfU1
  | .convU1, true => .convOvfU1Un
  | .convI2, false => .convOvfI2
  | .convI2, true => .convOvfI2Un
  | .convU2, false => .convOvfU2
  | .convU2, true => .convOvfU2Un
  | .convI4, false => .convOvfI4
  | .convI4, true => .convOvfI4Un
  | .convU4, false => .convOvfU4
  | .convU4, true => .convOvfU4Un
  | .convI8, false => .convOvfI8
  | .convI8, true => .convOvfI8Un
  | .convU8, false => .convOvfU8
  | .convU8, true => .convOvfU8Un
  | .convI, false => .convOvfI
  | .convI, true => .convOvfIUn
  | .convU, false => .convOvfU
  | .convU, true => .convOvfUUn
  | op, _ => op

end Opcode

end CilAssembly
