import FusionAtlas.Text.CharacterClass

/-!
Composed text: marks stand in a fixed order behind the character they belong to, and a character
and its mark are one character where there is one for both. Texts that look alike because they
differ only in this have one composed form.
-/

set_option autoImplicit false
set_option relaxedAutoImplicit false

namespace FusionAtlas.Text

/-- Characters in a row with the same combining class. -/
structure ClassRun where
  first : Nat
  last : Nat
  combiningClass : Nat
  deriving DecidableEq, Repr

/-- The marks that have a place in the order of marks, by their class. -/
def classRuns : List ClassRun :=
  [⟨0x300, 0x314, 230⟩, ⟨0x315, 0x315, 232⟩, ⟨0x316, 0x319, 220⟩, ⟨0x31A, 0x31A, 232⟩,
   ⟨0x31B, 0x31B, 216⟩, ⟨0x31C, 0x320, 220⟩, ⟨0x321, 0x322, 202⟩, ⟨0x323, 0x326, 220⟩,
   ⟨0x327, 0x328, 202⟩, ⟨0x329, 0x333, 220⟩, ⟨0x334, 0x338, 1⟩, ⟨0x339, 0x33C, 220⟩,
   ⟨0x33D, 0x33F, 230⟩, ⟨0x342, 0x342, 230⟩, ⟨0x346, 0x346, 230⟩, ⟨0x347, 0x349, 220⟩,
   ⟨0x34A, 0x34C, 230⟩, ⟨0x34D, 0x34E, 220⟩, ⟨0x350, 0x352, 230⟩, ⟨0x353, 0x356, 220⟩,
   ⟨0x357, 0x357, 230⟩, ⟨0x358, 0x358, 232⟩, ⟨0x359, 0x35A, 220⟩, ⟨0x35B, 0x35B, 230⟩,
   ⟨0x35C, 0x35C, 233⟩, ⟨0x35D, 0x35E, 234⟩, ⟨0x35F, 0x35F, 233⟩, ⟨0x360, 0x361, 234⟩,
   ⟨0x362, 0x362, 233⟩, ⟨0x363, 0x36F, 230⟩, ⟨0x483, 0x487, 230⟩, ⟨0x591, 0x591, 220⟩,
   ⟨0x592, 0x595, 230⟩, ⟨0x596, 0x596, 220⟩, ⟨0x597, 0x599, 230⟩, ⟨0x59A, 0x59A, 222⟩,
   ⟨0x59B, 0x59B, 220⟩, ⟨0x59C, 0x5A1, 230⟩, ⟨0x5A2, 0x5A7, 220⟩, ⟨0x5A8, 0x5A9, 230⟩,
   ⟨0x5AA, 0x5AA, 220⟩, ⟨0x5AB, 0x5AC, 230⟩, ⟨0x5AD, 0x5AD, 222⟩, ⟨0x5AE, 0x5AE, 228⟩,
   ⟨0x5AF, 0x5AF, 230⟩, ⟨0x5B0, 0x5B0, 10⟩, ⟨0x5B1, 0x5B1, 11⟩, ⟨0x5B2, 0x5B2, 12⟩,
   ⟨0x5B3, 0x5B3, 13⟩, ⟨0x5B4, 0x5B4, 14⟩, ⟨0x5B5, 0x5B5, 15⟩, ⟨0x5B6, 0x5B6, 16⟩,
   ⟨0x5B7, 0x5B7, 17⟩, ⟨0x5B8, 0x5B8, 18⟩, ⟨0x5B9, 0x5BA, 19⟩, ⟨0x5BB, 0x5BB, 20⟩,
   ⟨0x5BC, 0x5BC, 21⟩, ⟨0x5BD, 0x5BD, 22⟩, ⟨0x5BF, 0x5BF, 23⟩, ⟨0x5C1, 0x5C1, 24⟩,
   ⟨0x5C2, 0x5C2, 25⟩, ⟨0x5C4, 0x5C4, 230⟩, ⟨0x5C5, 0x5C5, 220⟩, ⟨0x5C7, 0x5C7, 18⟩,
   ⟨0x610, 0x617, 230⟩, ⟨0x618, 0x618, 30⟩, ⟨0x619, 0x619, 31⟩, ⟨0x61A, 0x61A, 32⟩,
   ⟨0x64B, 0x64B, 27⟩, ⟨0x64C, 0x64C, 28⟩, ⟨0x64D, 0x64D, 29⟩, ⟨0x64E, 0x64E, 30⟩,
   ⟨0x64F, 0x64F, 31⟩, ⟨0x650, 0x650, 32⟩, ⟨0x651, 0x651, 33⟩, ⟨0x652, 0x652, 34⟩,
   ⟨0x653, 0x654, 230⟩, ⟨0x655, 0x656, 220⟩, ⟨0x657, 0x65B, 230⟩, ⟨0x65C, 0x65C, 220⟩,
   ⟨0x65D, 0x65E, 230⟩, ⟨0x65F, 0x65F, 220⟩, ⟨0x670, 0x670, 35⟩, ⟨0x6D6, 0x6DC, 230⟩,
   ⟨0x6DF, 0x6E2, 230⟩, ⟨0x6E3, 0x6E3, 220⟩, ⟨0x6E4, 0x6E4, 230⟩, ⟨0x6E7, 0x6E8, 230⟩,
   ⟨0x6EA, 0x6EA, 220⟩, ⟨0x6EB, 0x6EC, 230⟩, ⟨0x6ED, 0x6ED, 220⟩, ⟨0x711, 0x711, 36⟩,
   ⟨0x730, 0x730, 230⟩, ⟨0x731, 0x731, 220⟩, ⟨0x732, 0x733, 230⟩, ⟨0x734, 0x734, 220⟩,
   ⟨0x735, 0x736, 230⟩, ⟨0x737, 0x739, 220⟩, ⟨0x73A, 0x73A, 230⟩, ⟨0x73B, 0x73C, 220⟩,
   ⟨0x73D, 0x73D, 230⟩, ⟨0x73E, 0x73E, 220⟩, ⟨0x73F, 0x741, 230⟩, ⟨0x742, 0x742, 220⟩,
   ⟨0x743, 0x743, 230⟩, ⟨0x744, 0x744, 220⟩, ⟨0x745, 0x745, 230⟩, ⟨0x746, 0x746, 220⟩,
   ⟨0x747, 0x747, 230⟩, ⟨0x748, 0x748, 220⟩, ⟨0x749, 0x74A, 230⟩, ⟨0x7EB, 0x7F1, 230⟩,
   ⟨0x7F2, 0x7F2, 220⟩, ⟨0x7F3, 0x7F3, 230⟩, ⟨0x7FD, 0x7FD, 220⟩, ⟨0x816, 0x819, 230⟩,
   ⟨0x81B, 0x823, 230⟩, ⟨0x825, 0x827, 230⟩, ⟨0x829, 0x82D, 230⟩, ⟨0x859, 0x85B, 220⟩,
   ⟨0x897, 0x898, 230⟩, ⟨0x899, 0x89B, 220⟩, ⟨0x89C, 0x89F, 230⟩, ⟨0x8CA, 0x8CE, 230⟩,
   ⟨0x8CF, 0x8D3, 220⟩, ⟨0x8D4, 0x8E1, 230⟩, ⟨0x8E3, 0x8E3, 220⟩, ⟨0x8E4, 0x8E5, 230⟩,
   ⟨0x8E6, 0x8E6, 220⟩, ⟨0x8E7, 0x8E8, 230⟩, ⟨0x8E9, 0x8E9, 220⟩, ⟨0x8EA, 0x8EC, 230⟩,
   ⟨0x8ED, 0x8EF, 220⟩, ⟨0x8F0, 0x8F0, 27⟩, ⟨0x8F1, 0x8F1, 28⟩, ⟨0x8F2, 0x8F2, 29⟩,
   ⟨0x8F3, 0x8F5, 230⟩, ⟨0x8F6, 0x8F6, 220⟩, ⟨0x8F7, 0x8F8, 230⟩, ⟨0x8F9, 0x8FA, 220⟩,
   ⟨0x8FB, 0x8FF, 230⟩, ⟨0x93C, 0x93C, 7⟩, ⟨0x94D, 0x94D, 9⟩, ⟨0x951, 0x951, 230⟩,
   ⟨0x952, 0x952, 220⟩, ⟨0x953, 0x954, 230⟩, ⟨0x9BC, 0x9BC, 7⟩, ⟨0x9CD, 0x9CD, 9⟩,
   ⟨0x9FE, 0x9FE, 230⟩, ⟨0xA3C, 0xA3C, 7⟩, ⟨0xA4D, 0xA4D, 9⟩, ⟨0xABC, 0xABC, 7⟩, ⟨0xACD, 0xACD, 9⟩,
   ⟨0xB3C, 0xB3C, 7⟩, ⟨0xB4D, 0xB4D, 9⟩, ⟨0xBCD, 0xBCD, 9⟩, ⟨0xC3C, 0xC3C, 7⟩, ⟨0xC4D, 0xC4D, 9⟩,
   ⟨0xC55, 0xC55, 84⟩, ⟨0xC56, 0xC56, 91⟩, ⟨0xCBC, 0xCBC, 7⟩, ⟨0xCCD, 0xCCD, 9⟩, ⟨0xD3B, 0xD3C, 9⟩,
   ⟨0xD4D, 0xD4D, 9⟩, ⟨0xDCA, 0xDCA, 9⟩, ⟨0xE38, 0xE39, 103⟩, ⟨0xE3A, 0xE3A, 9⟩,
   ⟨0xE48, 0xE4B, 107⟩, ⟨0xEB8, 0xEB9, 118⟩, ⟨0xEBA, 0xEBA, 9⟩, ⟨0xEC8, 0xECB, 122⟩,
   ⟨0xF18, 0xF19, 220⟩, ⟨0xF35, 0xF35, 220⟩, ⟨0xF37, 0xF37, 220⟩, ⟨0xF39, 0xF39, 216⟩,
   ⟨0xF71, 0xF71, 129⟩, ⟨0xF72, 0xF72, 130⟩, ⟨0xF74, 0xF74, 132⟩, ⟨0xF7A, 0xF7D, 130⟩,
   ⟨0xF80, 0xF80, 130⟩, ⟨0xF82, 0xF83, 230⟩, ⟨0xF84, 0xF84, 9⟩, ⟨0xF86, 0xF87, 230⟩,
   ⟨0xFC6, 0xFC6, 220⟩, ⟨0x1037, 0x1037, 7⟩, ⟨0x1039, 0x103A, 9⟩, ⟨0x108D, 0x108D, 220⟩,
   ⟨0x135D, 0x135F, 230⟩, ⟨0x1714, 0x1715, 9⟩, ⟨0x1734, 0x1734, 9⟩, ⟨0x17D2, 0x17D2, 9⟩,
   ⟨0x17DD, 0x17DD, 230⟩, ⟨0x18A9, 0x18A9, 228⟩, ⟨0x1939, 0x1939, 222⟩, ⟨0x193A, 0x193A, 230⟩,
   ⟨0x193B, 0x193B, 220⟩, ⟨0x1A17, 0x1A17, 230⟩, ⟨0x1A18, 0x1A18, 220⟩, ⟨0x1A60, 0x1A60, 9⟩,
   ⟨0x1A75, 0x1A7C, 230⟩, ⟨0x1A7F, 0x1A7F, 220⟩, ⟨0x1AB0, 0x1AB4, 230⟩, ⟨0x1AB5, 0x1ABA, 220⟩,
   ⟨0x1ABB, 0x1ABC, 230⟩, ⟨0x1ABD, 0x1ABD, 220⟩, ⟨0x1ABF, 0x1AC0, 220⟩, ⟨0x1AC1, 0x1AC2, 230⟩,
   ⟨0x1AC3, 0x1AC4, 220⟩, ⟨0x1AC5, 0x1AC9, 230⟩, ⟨0x1ACA, 0x1ACA, 220⟩, ⟨0x1ACB, 0x1ADC, 230⟩,
   ⟨0x1ADD, 0x1ADD, 220⟩, ⟨0x1AE0, 0x1AE5, 230⟩, ⟨0x1AE6, 0x1AE6, 220⟩, ⟨0x1AE7, 0x1AEA, 230⟩,
   ⟨0x1AEB, 0x1AEB, 234⟩, ⟨0x1B34, 0x1B34, 7⟩, ⟨0x1B44, 0x1B44, 9⟩, ⟨0x1B6B, 0x1B6B, 230⟩,
   ⟨0x1B6C, 0x1B6C, 220⟩, ⟨0x1B6D, 0x1B73, 230⟩, ⟨0x1BAA, 0x1BAB, 9⟩, ⟨0x1BE6, 0x1BE6, 7⟩,
   ⟨0x1BF2, 0x1BF3, 9⟩, ⟨0x1C37, 0x1C37, 7⟩, ⟨0x1CD0, 0x1CD2, 230⟩, ⟨0x1CD4, 0x1CD4, 1⟩,
   ⟨0x1CD5, 0x1CD9, 220⟩, ⟨0x1CDA, 0x1CDB, 230⟩, ⟨0x1CDC, 0x1CDF, 220⟩, ⟨0x1CE0, 0x1CE0, 230⟩,
   ⟨0x1CE2, 0x1CE8, 1⟩, ⟨0x1CED, 0x1CED, 220⟩, ⟨0x1CF4, 0x1CF4, 230⟩, ⟨0x1CF8, 0x1CF9, 230⟩,
   ⟨0x1DC0, 0x1DC1, 230⟩, ⟨0x1DC2, 0x1DC2, 220⟩, ⟨0x1DC3, 0x1DC9, 230⟩, ⟨0x1DCA, 0x1DCA, 220⟩,
   ⟨0x1DCB, 0x1DCC, 230⟩, ⟨0x1DCD, 0x1DCD, 234⟩, ⟨0x1DCE, 0x1DCE, 214⟩, ⟨0x1DCF, 0x1DCF, 220⟩,
   ⟨0x1DD0, 0x1DD0, 202⟩, ⟨0x1DD1, 0x1DF5, 230⟩, ⟨0x1DF6, 0x1DF6, 232⟩, ⟨0x1DF7, 0x1DF8, 228⟩,
   ⟨0x1DF9, 0x1DF9, 220⟩, ⟨0x1DFA, 0x1DFA, 218⟩, ⟨0x1DFB, 0x1DFB, 230⟩, ⟨0x1DFC, 0x1DFC, 233⟩,
   ⟨0x1DFD, 0x1DFD, 220⟩, ⟨0x1DFE, 0x1DFE, 230⟩, ⟨0x1DFF, 0x1DFF, 220⟩, ⟨0x20D0, 0x20D1, 230⟩,
   ⟨0x20D2, 0x20D3, 1⟩, ⟨0x20D4, 0x20D7, 230⟩, ⟨0x20D8, 0x20DA, 1⟩, ⟨0x20DB, 0x20DC, 230⟩,
   ⟨0x20E1, 0x20E1, 230⟩, ⟨0x20E5, 0x20E6, 1⟩, ⟨0x20E7, 0x20E7, 230⟩, ⟨0x20E8, 0x20E8, 220⟩,
   ⟨0x20E9, 0x20E9, 230⟩, ⟨0x20EA, 0x20EB, 1⟩, ⟨0x20EC, 0x20EF, 220⟩, ⟨0x20F0, 0x20F0, 230⟩,
   ⟨0x2CEF, 0x2CF1, 230⟩, ⟨0x2D7F, 0x2D7F, 9⟩, ⟨0x2DE0, 0x2DFF, 230⟩, ⟨0x302A, 0x302A, 218⟩,
   ⟨0x302B, 0x302B, 228⟩, ⟨0x302C, 0x302C, 232⟩, ⟨0x302D, 0x302D, 222⟩, ⟨0x302E, 0x302F, 224⟩,
   ⟨0x3099, 0x309A, 8⟩, ⟨0xA66F, 0xA66F, 230⟩, ⟨0xA674, 0xA67D, 230⟩, ⟨0xA69E, 0xA69F, 230⟩,
   ⟨0xA6F0, 0xA6F1, 230⟩, ⟨0xA806, 0xA806, 9⟩, ⟨0xA82C, 0xA82C, 9⟩, ⟨0xA8C4, 0xA8C4, 9⟩,
   ⟨0xA8E0, 0xA8F1, 230⟩, ⟨0xA92B, 0xA92D, 220⟩, ⟨0xA953, 0xA953, 9⟩, ⟨0xA9B3, 0xA9B3, 7⟩,
   ⟨0xA9C0, 0xA9C0, 9⟩, ⟨0xAAB0, 0xAAB0, 230⟩, ⟨0xAAB2, 0xAAB3, 230⟩, ⟨0xAAB4, 0xAAB4, 220⟩,
   ⟨0xAAB7, 0xAAB8, 230⟩, ⟨0xAABE, 0xAABF, 230⟩, ⟨0xAAC1, 0xAAC1, 230⟩, ⟨0xAAF6, 0xAAF6, 9⟩,
   ⟨0xABED, 0xABED, 9⟩, ⟨0xFB1E, 0xFB1E, 26⟩, ⟨0xFE20, 0xFE26, 230⟩, ⟨0xFE27, 0xFE2D, 220⟩,
   ⟨0xFE2E, 0xFE2F, 230⟩, ⟨0x101FD, 0x101FD, 220⟩, ⟨0x102E0, 0x102E0, 220⟩, ⟨0x10376, 0x1037A, 230⟩,
   ⟨0x10A0D, 0x10A0D, 220⟩, ⟨0x10A0F, 0x10A0F, 230⟩, ⟨0x10A38, 0x10A38, 230⟩, ⟨0x10A39, 0x10A39, 1⟩,
   ⟨0x10A3A, 0x10A3A, 220⟩, ⟨0x10A3F, 0x10A3F, 9⟩, ⟨0x10AE5, 0x10AE5, 230⟩, ⟨0x10AE6, 0x10AE6, 220⟩,
   ⟨0x10D24, 0x10D27, 230⟩, ⟨0x10D69, 0x10D6D, 230⟩, ⟨0x10EAB, 0x10EAC, 230⟩,
   ⟨0x10EFA, 0x10EFB, 220⟩, ⟨0x10EFD, 0x10EFF, 220⟩, ⟨0x10F46, 0x10F47, 220⟩,
   ⟨0x10F48, 0x10F4A, 230⟩, ⟨0x10F4B, 0x10F4B, 220⟩, ⟨0x10F4C, 0x10F4C, 230⟩,
   ⟨0x10F4D, 0x10F50, 220⟩, ⟨0x10F82, 0x10F82, 230⟩, ⟨0x10F83, 0x10F83, 220⟩,
   ⟨0x10F84, 0x10F84, 230⟩, ⟨0x10F85, 0x10F85, 220⟩, ⟨0x11046, 0x11046, 9⟩, ⟨0x11070, 0x11070, 9⟩,
   ⟨0x1107F, 0x1107F, 9⟩, ⟨0x110B9, 0x110B9, 9⟩, ⟨0x110BA, 0x110BA, 7⟩, ⟨0x11100, 0x11102, 230⟩,
   ⟨0x11133, 0x11134, 9⟩, ⟨0x11173, 0x11173, 7⟩, ⟨0x111C0, 0x111C0, 9⟩, ⟨0x111CA, 0x111CA, 7⟩,
   ⟨0x11235, 0x11235, 9⟩, ⟨0x11236, 0x11236, 7⟩, ⟨0x112E9, 0x112E9, 7⟩, ⟨0x112EA, 0x112EA, 9⟩,
   ⟨0x1133B, 0x1133C, 7⟩, ⟨0x1134D, 0x1134D, 9⟩, ⟨0x11366, 0x1136C, 230⟩, ⟨0x11370, 0x11374, 230⟩,
   ⟨0x113CE, 0x113D0, 9⟩, ⟨0x11442, 0x11442, 9⟩, ⟨0x11446, 0x11446, 7⟩, ⟨0x1145E, 0x1145E, 230⟩,
   ⟨0x114C2, 0x114C2, 9⟩, ⟨0x114C3, 0x114C3, 7⟩, ⟨0x115BF, 0x115BF, 9⟩, ⟨0x115C0, 0x115C0, 7⟩,
   ⟨0x1163F, 0x1163F, 9⟩, ⟨0x116B6, 0x116B6, 9⟩, ⟨0x116B7, 0x116B7, 7⟩, ⟨0x1172B, 0x1172B, 9⟩,
   ⟨0x11839, 0x11839, 9⟩, ⟨0x1183A, 0x1183A, 7⟩, ⟨0x1193D, 0x1193E, 9⟩, ⟨0x11943, 0x11943, 7⟩,
   ⟨0x119E0, 0x119E0, 9⟩, ⟨0x11A34, 0x11A34, 9⟩, ⟨0x11A47, 0x11A47, 9⟩, ⟨0x11A99, 0x11A99, 9⟩,
   ⟨0x11C3F, 0x11C3F, 9⟩, ⟨0x11D42, 0x11D42, 7⟩, ⟨0x11D44, 0x11D45, 9⟩, ⟨0x11D97, 0x11D97, 9⟩,
   ⟨0x11F41, 0x11F42, 9⟩, ⟨0x1612F, 0x1612F, 9⟩, ⟨0x16AF0, 0x16AF4, 1⟩, ⟨0x16B30, 0x16B36, 230⟩,
   ⟨0x16FF0, 0x16FF1, 6⟩, ⟨0x1BC9E, 0x1BC9E, 1⟩, ⟨0x1D165, 0x1D166, 216⟩, ⟨0x1D167, 0x1D169, 1⟩,
   ⟨0x1D16D, 0x1D16D, 226⟩, ⟨0x1D16E, 0x1D172, 216⟩, ⟨0x1D17B, 0x1D182, 220⟩,
   ⟨0x1D185, 0x1D189, 230⟩, ⟨0x1D18A, 0x1D18B, 220⟩, ⟨0x1D1AA, 0x1D1AD, 230⟩,
   ⟨0x1D242, 0x1D244, 230⟩, ⟨0x1E000, 0x1E006, 230⟩, ⟨0x1E008, 0x1E018, 230⟩,
   ⟨0x1E01B, 0x1E021, 230⟩, ⟨0x1E023, 0x1E024, 230⟩, ⟨0x1E026, 0x1E02A, 230⟩,
   ⟨0x1E08F, 0x1E08F, 230⟩, ⟨0x1E130, 0x1E136, 230⟩, ⟨0x1E2AE, 0x1E2AE, 230⟩,
   ⟨0x1E2EC, 0x1E2EF, 230⟩, ⟨0x1E4EC, 0x1E4ED, 232⟩, ⟨0x1E4EE, 0x1E4EE, 220⟩,
   ⟨0x1E4EF, 0x1E4EF, 230⟩, ⟨0x1E5EE, 0x1E5EE, 230⟩, ⟨0x1E5EF, 0x1E5EF, 220⟩,
   ⟨0x1E6E3, 0x1E6E3, 230⟩, ⟨0x1E6E6, 0x1E6E6, 230⟩, ⟨0x1E6EE, 0x1E6EF, 230⟩,
   ⟨0x1E6F5, 0x1E6F5, 230⟩, ⟨0x1E8D0, 0x1E8D6, 220⟩, ⟨0x1E944, 0x1E949, 230⟩, ⟨0x1E94A, 0x1E94A, 7⟩]

/-- Characters that stand for two, each word one such character and the two. -/
def compositeWords : List String :=
  ["àa\u0300 áa\u0301 âa\u0302 ãa\u0303 äa\u0308 åa\u030a çc\u0327 èe\u0300 ée\u0301 êe\u0302",
   "ëe\u0308 ìi\u0300 íi\u0301 îi\u0302 ïi\u0308 ñn\u0303 òo\u0300 óo\u0301 ôo\u0302 õo\u0303",
   "öo\u0308 ùu\u0300 úu\u0301 ûu\u0302 üu\u0308 ýy\u0301 ÿy\u0308 āa\u0304 ăa\u0306 ąa\u0328",
   "ćc\u0301 ĉc\u0302 ċc\u0307 čc\u030c ďd\u030c ēe\u0304 ĕe\u0306 ėe\u0307 ęe\u0328 ěe\u030c",
   "ĝg\u0302 ğg\u0306 ġg\u0307 ģg\u0327 ĥh\u0302 ĩi\u0303 īi\u0304 ĭi\u0306 įi\u0328 ĵj\u0302",
   "ķk\u0327 ĺl\u0301 ļl\u0327 ľl\u030c ńn\u0301 ņn\u0327 ňn\u030c ōo\u0304 ŏo\u0306 őo\u030b",
   "ŕr\u0301 ŗr\u0327 řr\u030c śs\u0301 ŝs\u0302 şs\u0327 šs\u030c ţt\u0327 ťt\u030c ũu\u0303",
   "ūu\u0304 ŭu\u0306 ůu\u030a űu\u030b ųu\u0328 ŵw\u0302 ŷy\u0302 źz\u0301 żz\u0307 žz\u030c",
   "ơo\u031b ưu\u031b ǎa\u030c ǐi\u030c ǒo\u030c ǔu\u030c ǖü\u0304 ǘü\u0301 ǚü\u030c ǜü\u0300",
   "ǟä\u0304 ǡȧ\u0304 ǣæ\u0304 ǧg\u030c ǩk\u030c ǫo\u0328 ǭǫ\u0304 ǯʒ\u030c ǰj\u030c ǵg\u0301",
   "ǹn\u0300 ǻå\u0301 ǽæ\u0301 ǿø\u0301 ȁa\u030f ȃa\u0311 ȅe\u030f ȇe\u0311 ȉi\u030f ȋi\u0311",
   "ȍo\u030f ȏo\u0311 ȑr\u030f ȓr\u0311 ȕu\u030f ȗu\u0311 șs\u0326 țt\u0326 ȟh\u030c ȧa\u0307",
   "ȩe\u0327 ȫö\u0304 ȭõ\u0304 ȯo\u0307 ȱȯ\u0304 ȳy\u0304 ΐϊ\u0301 άα\u0301 έε\u0301 ήη\u0301",
   "ίι\u0301 ΰϋ\u0301 ϊι\u0308 ϋυ\u0308 όο\u0301 ύυ\u0301 ώω\u0301 йи\u0306 ѐе\u0300 ёе\u0308",
   "ѓг\u0301 їі\u0308 ќк\u0301 ѝи\u0300 ўу\u0306 ѷѵ\u030f ӂж\u0306 ӑа\u0306 ӓа\u0308 ӗе\u0306",
   "ӛә\u0308 ӝж\u0308 ӟз\u0308 ӣи\u0304 ӥи\u0308 ӧо\u0308 ӫө\u0308 ӭэ\u0308 ӯу\u0304 ӱу\u0308",
   "ӳу\u030b ӵч\u0308 ӹы\u0308 \u0622\u0627\u0653 \u0623\u0627\u0654 \u0624\u0648\u0654",
   "\u0625\u0627\u0655 \u0626\u064a\u0654 \u06c0\u06d5\u0654 \u06c2\u06c1\u0654 \u06d3\u06d2\u0654",
   "ऩन\u093c ऱर\u093c ऴळ\u093c \u09cb\u09c7\u09be \u09cc\u09c7\u09d7 \u0b48\u0b47\u0b56",
   "\u0b4b\u0b47\u0b3e \u0b4c\u0b47\u0b57 ஔஒ\u0bd7 \u0bca\u0bc6\u0bbe \u0bcb\u0bc7\u0bbe",
   "\u0bcc\u0bc6\u0bd7 \u0c48\u0c46\u0c56 \u0cc0\u0cbf\u0cd5 \u0cc7\u0cc6\u0cd5 \u0cc8\u0cc6\u0cd6",
   "\u0cca\u0cc6\u0cc2 \u0ccb\u0cca\u0cd5 \u0d4a\u0d46\u0d3e \u0d4b\u0d47\u0d3e \u0d4c\u0d46\u0d57",
   "\u0dda\u0dd9\u0dca \u0ddc\u0dd9\u0dcf \u0ddd\u0ddc\u0dca \u0dde\u0dd9\u0ddf ဦဥ\u102e ᬆᬅ\u1b35",
   "ᬈᬇ\u1b35 ᬊᬉ\u1b35 ᬌᬋ\u1b35 ᬎᬍ\u1b35 ᬒᬑ\u1b35 \u1b3b\u1b3a\u1b35 \u1b3d\u1b3c\u1b35",
   "\u1b40\u1b3e\u1b35 \u1b41\u1b3f\u1b35 \u1b43\u1b42\u1b35 ḁa\u0325 ḃb\u0307 ḅb\u0323 ḇb\u0331",
   "ḉç\u0301 ḋd\u0307 ḍd\u0323 ḏd\u0331 ḑd\u0327 ḓd\u032d ḕē\u0300 ḗē\u0301 ḙe\u032d ḛe\u0330",
   "ḝȩ\u0306 ḟf\u0307 ḡg\u0304 ḣh\u0307 ḥh\u0323 ḧh\u0308 ḩh\u0327 ḫh\u032e ḭi\u0330 ḯï\u0301",
   "ḱk\u0301 ḳk\u0323 ḵk\u0331 ḷl\u0323 ḹḷ\u0304 ḻl\u0331 ḽl\u032d ḿm\u0301 ṁm\u0307 ṃm\u0323",
   "ṅn\u0307 ṇn\u0323 ṉn\u0331 ṋn\u032d ṍõ\u0301 ṏõ\u0308 ṑō\u0300 ṓō\u0301 ṕp\u0301 ṗp\u0307",
   "ṙr\u0307 ṛr\u0323 ṝṛ\u0304 ṟr\u0331 ṡs\u0307 ṣs\u0323 ṥś\u0307 ṧš\u0307 ṩṣ\u0307 ṫt\u0307",
   "ṭt\u0323 ṯt\u0331 ṱt\u032d ṳu\u0324 ṵu\u0330 ṷu\u032d ṹũ\u0301 ṻū\u0308 ṽv\u0303 ṿv\u0323",
   "ẁw\u0300 ẃw\u0301 ẅw\u0308 ẇw\u0307 ẉw\u0323 ẋx\u0307 ẍx\u0308 ẏy\u0307 ẑz\u0302 ẓz\u0323",
   "ẕz\u0331 ẖh\u0331 ẗt\u0308 ẘw\u030a ẙy\u030a ạa\u0323 ảa\u0309 ấâ\u0301 ầâ\u0300 ẩâ\u0309",
   "ẫâ\u0303 ậạ\u0302 ắă\u0301 ằă\u0300 ẳă\u0309 ẵă\u0303 ặạ\u0306 ẹe\u0323 ẻe\u0309 ẽe\u0303",
   "ếê\u0301 ềê\u0300 ểê\u0309 ễê\u0303 ệẹ\u0302 ỉi\u0309 ịi\u0323 ọo\u0323 ỏo\u0309 ốô\u0301",
   "ồô\u0300 ổô\u0309 ỗô\u0303 ộọ\u0302 ớơ\u0301 ờơ\u0300 ởơ\u0309 ỡơ\u0303 ợơ\u0323 ụu\u0323",
   "ủu\u0309 ứư\u0301 ừư\u0300 ửư\u0309 ữư\u0303 ựư\u0323 ỳy\u0300 ỵy\u0323 ỷy\u0309 ỹy\u0303",
   "ἀα\u0313 ἁα\u0314 ἂἀ\u0300 ἃἁ\u0300 ἄἀ\u0301 ἅἁ\u0301 ἆἀ\u0342 ἇἁ\u0342 ἐε\u0313 ἑε\u0314",
   "ἒἐ\u0300 ἓἑ\u0300 ἔἐ\u0301 ἕἑ\u0301 ἠη\u0313 ἡη\u0314 ἢἠ\u0300 ἣἡ\u0300 ἤἠ\u0301 ἥἡ\u0301",
   "ἦἠ\u0342 ἧἡ\u0342 ἰι\u0313 ἱι\u0314 ἲἰ\u0300 ἳἱ\u0300 ἴἰ\u0301 ἵἱ\u0301 ἶἰ\u0342 ἷἱ\u0342",
   "ὀο\u0313 ὁο\u0314 ὂὀ\u0300 ὃὁ\u0300 ὄὀ\u0301 ὅὁ\u0301 ὐυ\u0313 ὑυ\u0314 ὒὐ\u0300 ὓὑ\u0300",
   "ὔὐ\u0301 ὕὑ\u0301 ὖὐ\u0342 ὗὑ\u0342 ὠω\u0313 ὡω\u0314 ὢὠ\u0300 ὣὡ\u0300 ὤὠ\u0301 ὥὡ\u0301",
   "ὦὠ\u0342 ὧὡ\u0342 ὰα\u0300 ὲε\u0300 ὴη\u0300 ὶι\u0300 ὸο\u0300 ὺυ\u0300 ὼω\u0300 ᾰα\u0306",
   "ᾱα\u0304 ᾶα\u0342 ῆη\u0342 ῐι\u0306 ῑι\u0304 ῒϊ\u0300 ῖι\u0342 ῗϊ\u0342 ῠυ\u0306 ῡυ\u0304",
   "ῢϋ\u0300 ῤρ\u0313 ῥρ\u0314 ῦυ\u0342 ῧϋ\u0342 ῶω\u0342 ↚←\u0338 ↛→\u0338 ↮↔\u0338 ⇍⇐\u0338",
   "⇎⇔\u0338 ⇏⇒\u0338 ∄∃\u0338 ∉∈\u0338 ∌∋\u0338 ∤∣\u0338 ∦∥\u0338 ≁∼\u0338 ≄≃\u0338 ≇≅\u0338",
   "≉≈\u0338 ≠=\u0338 ≢≡\u0338 ≭≍\u0338 ≮<\u0338 ≯>\u0338 ≰≤\u0338 ≱≥\u0338 ≴≲\u0338 ≵≳\u0338",
   "≸≶\u0338 ≹≷\u0338 ⊀≺\u0338 ⊁≻\u0338 ⊄⊂\u0338 ⊅⊃\u0338 ⊈⊆\u0338 ⊉⊇\u0338 ⊬⊢\u0338 ⊭⊨\u0338",
   "⊮⊩\u0338 ⊯⊫\u0338 ⋠≼\u0338 ⋡≽\u0338 ⋢⊑\u0338 ⋣⊒\u0338 ⋪⊲\u0338 ⋫⊳\u0338 ⋬⊴\u0338 ⋭⊵\u0338",
   "がか\u3099 ぎき\u3099 ぐく\u3099 げけ\u3099 ごこ\u3099 ざさ\u3099 じし\u3099 ずす\u3099 ぜせ\u3099 ぞそ\u3099",
   "だた\u3099 ぢち\u3099 づつ\u3099 でて\u3099 どと\u3099 ばは\u3099 ぱは\u309a びひ\u3099 ぴひ\u309a ぶふ\u3099",
   "ぷふ\u309a べへ\u3099 ぺへ\u309a ぼほ\u3099 ぽほ\u309a ゔう\u3099 ゞゝ\u3099 ガカ\u3099 ギキ\u3099 グク\u3099",
   "ゲケ\u3099 ゴコ\u3099 ザサ\u3099 ジシ\u3099 ズス\u3099 ゼセ\u3099 ゾソ\u3099 ダタ\u3099 ヂチ\u3099 ヅツ\u3099",
   "デテ\u3099 ドト\u3099 バハ\u3099 パハ\u309a ビヒ\u3099 ピヒ\u309a ブフ\u3099 プフ\u309a ベヘ\u3099 ペヘ\u309a",
   "ボホ\u3099 ポホ\u309a ヴウ\u3099 ヷワ\u3099 ヸヰ\u3099 ヹヱ\u3099 ヺヲ\u3099 ヾヽ\u3099 𐗉𐗒\u0307 𐗤𐗚\u0307 𑂚𑂚",
   "𑂜𑂜 𑂫𑂫 𑄮𑄮 𑄯𑄯 𑍋𑍋 𑍌𑍌 𑎃𑎃 𑎅𑎅 𑎎𑎎 𑎑𑎑 𑏅𑏅 𑏇𑏇 𑏈𑏈 𑒻𑒻 𑒼𑒼 𑒾𑒾 𑖺𑖺 𑖻𑖻 𑤸𑤸 𖄡𖄡 𖄢𖄢 𖄣𖄣 𖄤𖄤",
   "𖄥𖄥 𖄦𖄦 𖄧𖄧 𖄨𖄨 𖵨𖵨 𖵩𖵩 𖵪𖵪"]

/-- A character that stands for two. -/
structure Composite where
  whole : Char
  first : Char
  second : Char
  deriving DecidableEq, Repr

/-- The characters that stand for two, apart from syllables of Hangul. -/
def composites : List Composite :=
  (compositeWords.flatMap fun line => line.toList.splitOn ' ').filterMap fun
    | [whole, first, second] => some ⟨whole, first, second⟩
    | _ => none

/-- Where a mark stands in the order of marks; zero if it has no place there. -/
def combiningClass (c : Char) : Nat :=
  match classRuns.find? fun run => run.first ≤ c.toNat && c.toNat ≤ run.last with
  | some run => run.combiningClass
  | none => 0

/-- The two parts of a syllable of Hangul: its first letters and its last one. -/
def hangulParts? (c : Char) : Option (Char × Char) :=
  if 0xAC00 ≤ c.toNat ∧ c.toNat ≤ 0xD7A3 then
    let index := c.toNat - 0xAC00
    if index % 28 = 0 then
      some (Char.ofNat (0x1100 + index / 588), Char.ofNat (0x1161 + index % 588 / 28))
    else some (Char.ofNat (0xAC00 + index / 28 * 28), Char.ofNat (0x11A7 + index % 28))
  else none

/-- The syllable of Hangul that two parts make. -/
def hangulWhole? (first second : Char) : Option Char :=
  let a := first.toNat
  let b := second.toNat
  if 0x1100 ≤ a ∧ a ≤ 0x1112 ∧ 0x1161 ≤ b ∧ b ≤ 0x1175 then
    some (Char.ofNat (0xAC00 + (a - 0x1100) * 588 + (b - 0x1161) * 28))
  else if 0xAC00 ≤ a ∧ a ≤ 0xD7A3 ∧ (a - 0xAC00) % 28 = 0 ∧ 0x11A8 ≤ b ∧ b ≤ 0x11C2 then
    some (Char.ofNat (a + (b - 0x11A7)))
  else none

/-- The two characters that one stands for. -/
def parts? (c : Char) : Option (Char × Char) :=
  (hangulParts? c).or ((composites.find? fun composite => composite.whole == c).map fun composite =>
    (composite.first, composite.second))

/-- The character that stands for two. -/
def whole? (first second : Char) : Option Char :=
  (hangulWhole? first second).or ((composites.find? fun composite =>
    composite.first == first && composite.second == second).map (·.whole))

/-- Take a character apart, in at most the given number of steps. -/
def takeApart : Nat → Char → List Char
  | 0, c => [c]
  | steps + 1, c =>
    match parts? c with
    | some (first, second) => takeApart steps first ++ [second]
    | none => [c]

/-- Put a character before ordered text; a mark passes those that belong before it. -/
def insertOrdered (c : Char) : List Char → List Char
  | [] => [c]
  | d :: rest =>
    if 0 < combiningClass d ∧ combiningClass d < combiningClass c then d :: insertOrdered c rest
    else c :: d :: rest

/-- Text taken apart, with its marks in order. No character takes more than four steps. -/
def decomposed (text : List Char) : List Char :=
  (text.flatMap (takeApart 4)).foldr insertOrdered []

/-- Join a character with those behind it that it can be joined with. `passed` are marks it was not
joined with, last first; a mark joins across them only if it belongs behind the last of them. -/
def joinFrom (c : Char) (passed : List Char) : List Char → List Char
  | [] => c :: passed.reverse
  | next :: rest =>
    let apart := passed.head?.any fun last => combiningClass next ≤ combiningClass last
    match if apart then none else whole? c next with
    | some whole => joinFrom whole passed rest
    | none =>
      if combiningClass next = 0 then c :: passed.reverse ++ joinFrom next [] rest
      else joinFrom c (next :: passed) rest

def composed (text : List Char) : List Char :=
  match decomposed text with
  | [] => []
  | c :: rest => joinFrom c [] rest

end FusionAtlas.Text
