/-!
# Blanks, digits and case

Small tables of the Unicode 14 character database: white space, decimal digits, and the mapping of
single characters to lower case. Ranges are inclusive and in increasing order.
-/

namespace Winnow.Text

/-- Code point ranges of white space. -/
def spaceRanges : List (Nat × Nat) :=
  [(0x9, 0xD), (0x1C, 0x20), (0x85, 0x85), (0xA0, 0xA0), (0x1680, 0x1680), (0x2000, 0x200A),
   (0x2028, 0x2029), (0x202F, 0x202F), (0x205F, 0x205F), (0x3000, 0x3000)]

/-- Code point ranges of decimal digits. Every range is a whole number of runs from zero to nine. -/
def digitRanges : List (Nat × Nat) :=
  [(0x30, 0x39), (0x660, 0x669), (0x6F0, 0x6F9), (0x7C0, 0x7C9), (0x966, 0x96F), (0x9E6, 0x9EF),
   (0xA66, 0xA6F), (0xAE6, 0xAEF), (0xB66, 0xB6F), (0xBE6, 0xBEF), (0xC66, 0xC6F),
   (0xCE6, 0xCEF), (0xD66, 0xD6F), (0xDE6, 0xDEF), (0xE50, 0xE59), (0xED0, 0xED9),
   (0xF20, 0xF29), (0x1040, 0x1049), (0x1090, 0x1099), (0x17E0, 0x17E9), (0x1810, 0x1819),
   (0x1946, 0x194F), (0x19D0, 0x19D9), (0x1A80, 0x1A89), (0x1A90, 0x1A99), (0x1B50, 0x1B59),
   (0x1BB0, 0x1BB9), (0x1C40, 0x1C49), (0x1C50, 0x1C59), (0xA620, 0xA629), (0xA8D0, 0xA8D9),
   (0xA900, 0xA909), (0xA9D0, 0xA9D9), (0xA9F0, 0xA9F9), (0xAA50, 0xAA59), (0xABF0, 0xABF9),
   (0xFF10, 0xFF19), (0x104A0, 0x104A9), (0x10D30, 0x10D39), (0x11066, 0x1106F),
   (0x110F0, 0x110F9), (0x11136, 0x1113F), (0x111D0, 0x111D9), (0x112F0, 0x112F9),
   (0x11450, 0x11459), (0x114D0, 0x114D9), (0x11650, 0x11659), (0x116C0, 0x116C9),
   (0x11730, 0x11739), (0x118E0, 0x118E9), (0x11950, 0x11959), (0x11C50, 0x11C59),
   (0x11D50, 0x11D59), (0x11DA0, 0x11DA9), (0x16A60, 0x16A69), (0x16AC0, 0x16AC9),
   (0x16B50, 0x16B59), (0x1D7CE, 0x1D7FF), (0x1E140, 0x1E149), (0x1E2F0, 0x1E2F9),
   (0x1E950, 0x1E959), (0x1FBF0, 0x1FBF9)]

/-- Runs `(first, last, shift, step)` of characters whose lower case is `shift` further on. -/
def lowercaseRuns : List (Nat × Nat × Int × Nat) :=
  [(0x41, 0x5A, 32, 1), (0xC0, 0xD6, 32, 1), (0xD8, 0xDE, 32, 1), (0x100, 0x12E, 1, 2),
   (0x130, 0x130, -199, 1), (0x132, 0x136, 1, 2), (0x139, 0x147, 1, 2), (0x14A, 0x176, 1, 2),
   (0x178, 0x178, -121, 1), (0x179, 0x17D, 1, 2), (0x181, 0x181, 210, 1), (0x182, 0x184, 1, 2),
   (0x186, 0x186, 206, 1), (0x187, 0x187, 1, 1), (0x189, 0x18A, 205, 1), (0x18B, 0x18B, 1, 1),
   (0x18E, 0x18E, 79, 1), (0x18F, 0x18F, 202, 1), (0x190, 0x190, 203, 1), (0x191, 0x191, 1, 1),
   (0x193, 0x193, 205, 1), (0x194, 0x194, 207, 1), (0x196, 0x196, 211, 1),
   (0x197, 0x197, 209, 1), (0x198, 0x198, 1, 1), (0x19C, 0x19C, 211, 1), (0x19D, 0x19D, 213, 1),
   (0x19F, 0x19F, 214, 1), (0x1A0, 0x1A4, 1, 2), (0x1A6, 0x1A6, 218, 1), (0x1A7, 0x1A7, 1, 1),
   (0x1A9, 0x1A9, 218, 1), (0x1AC, 0x1AC, 1, 1), (0x1AE, 0x1AE, 218, 1), (0x1AF, 0x1AF, 1, 1),
   (0x1B1, 0x1B2, 217, 1), (0x1B3, 0x1B5, 1, 2), (0x1B7, 0x1B7, 219, 1), (0x1B8, 0x1B8, 1, 1),
   (0x1BC, 0x1BC, 1, 1), (0x1C4, 0x1C4, 2, 1), (0x1C5, 0x1C5, 1, 1), (0x1C7, 0x1C7, 2, 1),
   (0x1C8, 0x1C8, 1, 1), (0x1CA, 0x1CA, 2, 1), (0x1CB, 0x1DB, 1, 2), (0x1DE, 0x1EE, 1, 2),
   (0x1F1, 0x1F1, 2, 1), (0x1F2, 0x1F4, 1, 2), (0x1F6, 0x1F6, -97, 1), (0x1F7, 0x1F7, -56, 1),
   (0x1F8, 0x21E, 1, 2), (0x220, 0x220, -130, 1), (0x222, 0x232, 1, 2), (0x23A, 0x23A, 10795, 1),
   (0x23B, 0x23B, 1, 1), (0x23D, 0x23D, -163, 1), (0x23E, 0x23E, 10792, 1), (0x241, 0x241, 1, 1),
   (0x243, 0x243, -195, 1), (0x244, 0x244, 69, 1), (0x245, 0x245, 71, 1), (0x246, 0x24E, 1, 2),
   (0x370, 0x372, 1, 2), (0x376, 0x376, 1, 1), (0x37F, 0x37F, 116, 1), (0x386, 0x386, 38, 1),
   (0x388, 0x38A, 37, 1), (0x38C, 0x38C, 64, 1), (0x38E, 0x38F, 63, 1), (0x391, 0x3A1, 32, 1),
   (0x3A3, 0x3AB, 32, 1), (0x3CF, 0x3CF, 8, 1), (0x3D8, 0x3EE, 1, 2), (0x3F4, 0x3F4, -60, 1),
   (0x3F7, 0x3F7, 1, 1), (0x3F9, 0x3F9, -7, 1), (0x3FA, 0x3FA, 1, 1), (0x3FD, 0x3FF, -130, 1),
   (0x400, 0x40F, 80, 1), (0x410, 0x42F, 32, 1), (0x460, 0x480, 1, 2), (0x48A, 0x4BE, 1, 2),
   (0x4C0, 0x4C0, 15, 1), (0x4C1, 0x4CD, 1, 2), (0x4D0, 0x52E, 1, 2), (0x531, 0x556, 48, 1),
   (0x10A0, 0x10C5, 7264, 1), (0x10C7, 0x10C7, 7264, 1), (0x10CD, 0x10CD, 7264, 1),
   (0x13A0, 0x13EF, 38864, 1), (0x13F0, 0x13F5, 8, 1), (0x1C90, 0x1CBA, -3008, 1),
   (0x1CBD, 0x1CBF, -3008, 1), (0x1E00, 0x1E94, 1, 2), (0x1E9E, 0x1E9E, -7615, 1),
   (0x1EA0, 0x1EFE, 1, 2), (0x1F08, 0x1F0F, -8, 1), (0x1F18, 0x1F1D, -8, 1),
   (0x1F28, 0x1F2F, -8, 1), (0x1F38, 0x1F3F, -8, 1), (0x1F48, 0x1F4D, -8, 1),
   (0x1F59, 0x1F5F, -8, 2), (0x1F68, 0x1F6F, -8, 1), (0x1F88, 0x1F8F, -8, 1),
   (0x1F98, 0x1F9F, -8, 1), (0x1FA8, 0x1FAF, -8, 1), (0x1FB8, 0x1FB9, -8, 1),
   (0x1FBA, 0x1FBB, -74, 1), (0x1FBC, 0x1FBC, -9, 1), (0x1FC8, 0x1FCB, -86, 1),
   (0x1FCC, 0x1FCC, -9, 1), (0x1FD8, 0x1FD9, -8, 1), (0x1FDA, 0x1FDB, -100, 1),
   (0x1FE8, 0x1FE9, -8, 1), (0x1FEA, 0x1FEB, -112, 1), (0x1FEC, 0x1FEC, -7, 1),
   (0x1FF8, 0x1FF9, -128, 1), (0x1FFA, 0x1FFB, -126, 1), (0x1FFC, 0x1FFC, -9, 1),
   (0x2126, 0x2126, -7517, 1), (0x212A, 0x212A, -8383, 1), (0x212B, 0x212B, -8262, 1),
   (0x2132, 0x2132, 28, 1), (0x2160, 0x216F, 16, 1), (0x2183, 0x2183, 1, 1),
   (0x24B6, 0x24CF, 26, 1), (0x2C00, 0x2C2F, 48, 1), (0x2C60, 0x2C60, 1, 1),
   (0x2C62, 0x2C62, -10743, 1), (0x2C63, 0x2C63, -3814, 1), (0x2C64, 0x2C64, -10727, 1),
   (0x2C67, 0x2C6B, 1, 2), (0x2C6D, 0x2C6D, -10780, 1), (0x2C6E, 0x2C6E, -10749, 1),
   (0x2C6F, 0x2C6F, -10783, 1), (0x2C70, 0x2C70, -10782, 1), (0x2C72, 0x2C72, 1, 1),
   (0x2C75, 0x2C75, 1, 1), (0x2C7E, 0x2C7F, -10815, 1), (0x2C80, 0x2CE2, 1, 2),
   (0x2CEB, 0x2CED, 1, 2), (0x2CF2, 0x2CF2, 1, 1), (0xA640, 0xA66C, 1, 2),
   (0xA680, 0xA69A, 1, 2), (0xA722, 0xA72E, 1, 2), (0xA732, 0xA76E, 1, 2),
   (0xA779, 0xA77B, 1, 2), (0xA77D, 0xA77D, -35332, 1), (0xA77E, 0xA786, 1, 2),
   (0xA78B, 0xA78B, 1, 1), (0xA78D, 0xA78D, -42280, 1), (0xA790, 0xA792, 1, 2),
   (0xA796, 0xA7A8, 1, 2), (0xA7AA, 0xA7AA, -42308, 1), (0xA7AB, 0xA7AB, -42319, 1),
   (0xA7AC, 0xA7AC, -42315, 1), (0xA7AD, 0xA7AD, -42305, 1), (0xA7AE, 0xA7AE, -42308, 1),
   (0xA7B0, 0xA7B0, -42258, 1), (0xA7B1, 0xA7B1, -42282, 1), (0xA7B2, 0xA7B2, -42261, 1),
   (0xA7B3, 0xA7B3, 928, 1), (0xA7B4, 0xA7C2, 1, 2), (0xA7C4, 0xA7C4, -48, 1),
   (0xA7C5, 0xA7C5, -42307, 1), (0xA7C6, 0xA7C6, -35384, 1), (0xA7C7, 0xA7C9, 1, 2),
   (0xA7D0, 0xA7D0, 1, 1), (0xA7D6, 0xA7D8, 1, 2), (0xA7F5, 0xA7F5, 1, 1),
   (0xFF21, 0xFF3A, 32, 1), (0x10400, 0x10427, 40, 1), (0x104B0, 0x104D3, 40, 1),
   (0x10570, 0x1057A, 39, 1), (0x1057C, 0x1058A, 39, 1), (0x1058C, 0x10592, 39, 1),
   (0x10594, 0x10595, 39, 1), (0x10C80, 0x10CB2, 64, 1), (0x118A0, 0x118BF, 32, 1),
   (0x16E40, 0x16E5F, 32, 1), (0x1E900, 0x1E921, 34, 1)]

/-- Lower-case characters that caseless matching takes for one another, beside the characters that
share a lower case. -/
def caseFamilies : List (List Nat) :=
  [[0x69, 0x131], [0x73, 0x17F], [0xB5, 0x3BC], [0x345, 0x3B9, 0x1FBE], [0x390, 0x1FD3],
   [0x3B0, 0x1FE3], [0x3B2, 0x3D0], [0x3B5, 0x3F5], [0x3B8, 0x3D1], [0x3BA, 0x3F0],
   [0x3C0, 0x3D6], [0x3C1, 0x3F1], [0x3C2, 0x3C3], [0x3C6, 0x3D5], [0x432, 0x1C80],
   [0x434, 0x1C81], [0x43E, 0x1C82], [0x441, 0x1C83], [0x442, 0x1C84, 0x1C85], [0x44A, 0x1C86],
   [0x463, 0x1C87], [0x1C88, 0xA64B], [0x1E61, 0x1E9B], [0xFB05, 0xFB06]]

end Winnow.Text
