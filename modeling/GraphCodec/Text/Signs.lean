import GraphCodec.Text.Printable

/-!
# Punctuation

The POSIX character class `punct`: printable characters that are neither alphanumeric nor space.
-/

set_option autoImplicit false

namespace GraphCodec.Text

/-- The code points of the POSIX character class `punct`, as closed ranges. -/
def signRuns : List (Nat × Nat) :=
  [(0x21, 0x2F), (0x3A, 0x40), (0x5B, 0x60), (0x7B, 0x7E), (0xA0, 0xA9), (0xAB, 0xB4), (0xB6, 0xB9),
    (0xBB, 0xBF), (0xD7, 0xD7), (0xF7, 0xF7), (0x2C2, 0x2C5), (0x2D2, 0x2DF), (0x2E5, 0x2EB),
    (0x2ED, 0x2ED), (0x2EF, 0x344), (0x346, 0x36F), (0x375, 0x375), (0x37E, 0x37E), (0x384, 0x385),
    (0x387, 0x387), (0x3F6, 0x3F6), (0x482, 0x489), (0x55A, 0x55F), (0x589, 0x58A), (0x58D, 0x58F),
    (0x591, 0x5AF), (0x5BE, 0x5BE), (0x5C0, 0x5C0), (0x5C3, 0x5C3), (0x5C6, 0x5C6), (0x5F3, 0x5F4),
    (0x600, 0x60F), (0x61B, 0x61F), (0x658, 0x658), (0x66A, 0x66D), (0x6D4, 0x6D4), (0x6DD, 0x6E0),
    (0x6E9, 0x6EC), (0x6FD, 0x6FE), (0x700, 0x70D), (0x70F, 0x70F), (0x740, 0x74A), (0x7EB, 0x7F3),
    (0x7F6, 0x7F9), (0x7FD, 0x7FF), (0x818, 0x819), (0x82D, 0x82D), (0x830, 0x83E), (0x859, 0x85B),
    (0x85E, 0x85E), (0x888, 0x888), (0x890, 0x891), (0x898, 0x89F), (0x8CA, 0x8D3), (0x8E0, 0x8E2),
    (0x8EA, 0x8EF), (0x93C, 0x93C), (0x94D, 0x94D), (0x951, 0x954), (0x964, 0x965), (0x970, 0x970),
    (0x9BC, 0x9BC), (0x9CD, 0x9CD), (0x9F2, 0x9FB), (0x9FD, 0x9FE), (0xA3C, 0xA3C), (0xA4D, 0xA4D),
    (0xA76, 0xA76), (0xABC, 0xABC), (0xACD, 0xACD), (0xAF0, 0xAF1), (0xAFD, 0xAFF), (0xB3C, 0xB3C),
    (0xB4D, 0xB4D), (0xB55, 0xB55), (0xB70, 0xB70), (0xB72, 0xB77), (0xBCD, 0xBCD), (0xBF0, 0xBFA),
    (0xC04, 0xC04), (0xC3C, 0xC3C), (0xC4D, 0xC4D), (0xC77, 0xC7F), (0xC84, 0xC84), (0xCBC, 0xCBC),
    (0xCCD, 0xCCD), (0xD3B, 0xD3C), (0xD4D, 0xD4D), (0xD4F, 0xD4F), (0xD58, 0xD5E), (0xD70, 0xD79),
    (0xDCA, 0xDCA), (0xDF4, 0xDF4), (0xE3F, 0xE3F), (0xE47, 0xE4C), (0xE4E, 0xE4F), (0xE5A, 0xE5B),
    (0xEBA, 0xEBA), (0xEC8, 0xECC), (0xF01, 0xF1F), (0xF2A, 0xF3F), (0xF82, 0xF87), (0xFBE, 0xFCC),
    (0xFCE, 0xFDA), (0x1037, 0x1037), (0x1039, 0x103A), (0x104A, 0x104F), (0x109E, 0x109F),
    (0x10FB, 0x10FB), (0x135D, 0x137C), (0x1390, 0x1399), (0x1400, 0x1400), (0x166D, 0x166E),
    (0x169B, 0x169C), (0x16EB, 0x16ED), (0x1714, 0x1715), (0x1734, 0x1736), (0x17B4, 0x17B5),
    (0x17C9, 0x17D6), (0x17D8, 0x17DB), (0x17DD, 0x17DD), (0x17F0, 0x17F9), (0x1800, 0x180F),
    (0x1939, 0x193B), (0x1940, 0x1940), (0x1944, 0x1945), (0x19DA, 0x19DA), (0x19DE, 0x19FF),
    (0x1A1E, 0x1A1F), (0x1A60, 0x1A60), (0x1A75, 0x1A7C), (0x1A7F, 0x1A7F), (0x1AA0, 0x1AA6),
    (0x1AA8, 0x1AAD), (0x1AB0, 0x1ABE), (0x1AC1, 0x1ACB), (0x1B34, 0x1B34), (0x1B44, 0x1B44),
    (0x1B5A, 0x1B7E), (0x1BAA, 0x1BAB), (0x1BE6, 0x1BE6), (0x1BF2, 0x1BF3), (0x1BFC, 0x1BFF),
    (0x1C37, 0x1C37), (0x1C3B, 0x1C3F), (0x1C7E, 0x1C7F), (0x1CC0, 0x1CC7), (0x1CD0, 0x1CE8),
    (0x1CED, 0x1CED), (0x1CF4, 0x1CF4), (0x1CF7, 0x1CF9), (0x1DC0, 0x1DE6), (0x1DF5, 0x1DFF),
    (0x1FBD, 0x1FBD), (0x1FBF, 0x1FC1), (0x1FCD, 0x1FCF), (0x1FDD, 0x1FDF), (0x1FED, 0x1FEF),
    (0x1FFD, 0x1FFE), (0x2007, 0x2007), (0x200B, 0x2027), (0x202A, 0x205E), (0x2060, 0x2064),
    (0x2066, 0x2070), (0x2074, 0x207E), (0x2080, 0x208E), (0x20A0, 0x20C0), (0x20D0, 0x20F0),
    (0x2100, 0x2101), (0x2103, 0x2106), (0x2108, 0x2109), (0x2114, 0x2114), (0x2116, 0x2118),
    (0x211E, 0x2123), (0x2125, 0x2125), (0x2127, 0x2127), (0x2129, 0x2129), (0x212E, 0x212E),
    (0x213A, 0x213B), (0x2140, 0x2144), (0x214A, 0x214D), (0x214F, 0x215F), (0x2189, 0x218B),
    (0x2190, 0x2426), (0x2440, 0x244A), (0x2460, 0x24B5), (0x24EA, 0x2B73), (0x2B76, 0x2B95),
    (0x2B97, 0x2BFF), (0x2CE5, 0x2CEA), (0x2CEF, 0x2CF1), (0x2CF9, 0x2CFF), (0x2D70, 0x2D70),
    (0x2D7F, 0x2D7F), (0x2E00, 0x2E2E), (0x2E30, 0x2E5D), (0x2E80, 0x2E99), (0x2E9B, 0x2EF3),
    (0x2F00, 0x2FD5), (0x2FF0, 0x2FFB), (0x3001, 0x3004), (0x3008, 0x3020), (0x302A, 0x3030),
    (0x3036, 0x3037), (0x303D, 0x303F), (0x3099, 0x309C), (0x30A0, 0x30A0), (0x30FB, 0x30FB),
    (0x3190, 0x319F), (0x31C0, 0x31E3), (0x3200, 0x321E), (0x3220, 0x33FF), (0x4DC0, 0x4DFF),
    (0xA490, 0xA4C6), (0xA4FE, 0xA4FF), (0xA60D, 0xA60F), (0xA66F, 0xA673), (0xA67C, 0xA67E),
    (0xA6F0, 0xA6F7), (0xA700, 0xA716), (0xA720, 0xA721), (0xA789, 0xA78A), (0xA806, 0xA806),
    (0xA828, 0xA82C), (0xA830, 0xA839), (0xA874, 0xA877), (0xA8C4, 0xA8C4), (0xA8CE, 0xA8CF),
    (0xA8E0, 0xA8F1), (0xA8F8, 0xA8FA), (0xA8FC, 0xA8FC), (0xA92B, 0xA92F), (0xA953, 0xA953),
    (0xA95F, 0xA95F), (0xA9B3, 0xA9B3), (0xA9C0, 0xA9CD), (0xA9DE, 0xA9DF), (0xAA5C, 0xAA5F),
    (0xAA77, 0xAA79), (0xAABF, 0xAABF), (0xAAC1, 0xAAC1), (0xAADE, 0xAADF), (0xAAF0, 0xAAF1),
    (0xAAF6, 0xAAF6), (0xAB5B, 0xAB5B), (0xAB6A, 0xAB6B), (0xABEB, 0xABED), (0xE000, 0xF8FF),
    (0xFB29, 0xFB29), (0xFBB2, 0xFBC2), (0xFD3E, 0xFD4F), (0xFDCF, 0xFDCF), (0xFDFC, 0xFE19),
    (0xFE20, 0xFE52), (0xFE54, 0xFE66), (0xFE68, 0xFE6B), (0xFEFF, 0xFEFF), (0xFF01, 0xFF0F),
    (0xFF1A, 0xFF20), (0xFF3B, 0xFF40), (0xFF5B, 0xFF65), (0xFFE0, 0xFFE6), (0xFFE8, 0xFFEE),
    (0xFFF9, 0xFFFD), (0x10100, 0x10102), (0x10107, 0x10133), (0x10137, 0x1013F),
    (0x10175, 0x1018E), (0x10190, 0x1019C), (0x101A0, 0x101A0), (0x101D0, 0x101FD),
    (0x102E0, 0x102FB), (0x10320, 0x10323), (0x1039F, 0x1039F), (0x103D0, 0x103D0),
    (0x1056F, 0x1056F), (0x10857, 0x1085F), (0x10877, 0x1087F), (0x108A7, 0x108AF),
    (0x108FB, 0x108FF), (0x10916, 0x1091B), (0x1091F, 0x1091F), (0x1093F, 0x1093F),
    (0x109BC, 0x109BD), (0x109C0, 0x109CF), (0x109D2, 0x109FF), (0x10A38, 0x10A3A),
    (0x10A3F, 0x10A48), (0x10A50, 0x10A58), (0x10A7D, 0x10A7F), (0x10A9D, 0x10A9F),
    (0x10AC8, 0x10AC8), (0x10AE5, 0x10AE6), (0x10AEB, 0x10AF6), (0x10B39, 0x10B3F),
    (0x10B58, 0x10B5F), (0x10B78, 0x10B7F), (0x10B99, 0x10B9C), (0x10BA9, 0x10BAF),
    (0x10CFA, 0x10CFF), (0x10E60, 0x10E7E), (0x10EAD, 0x10EAD), (0x10F1D, 0x10F26),
    (0x10F46, 0x10F59), (0x10F82, 0x10F89), (0x10FC5, 0x10FCB), (0x11046, 0x1104D),
    (0x11052, 0x11065), (0x11070, 0x11070), (0x1107F, 0x11081), (0x110B9, 0x110C1),
    (0x110CD, 0x110CD), (0x11133, 0x11134), (0x11140, 0x11143), (0x11173, 0x11175),
    (0x111C0, 0x111C0), (0x111C5, 0x111CD), (0x111DB, 0x111DB), (0x111DD, 0x111DF),
    (0x111E1, 0x111F4), (0x11235, 0x11236), (0x11238, 0x1123D), (0x112A9, 0x112A9),
    (0x112E9, 0x112EA), (0x1133B, 0x1133C), (0x1134D, 0x1134D), (0x11366, 0x1136C),
    (0x11370, 0x11374), (0x11442, 0x11442), (0x11446, 0x11446), (0x1144B, 0x1144F),
    (0x1145A, 0x1145B), (0x1145D, 0x1145E), (0x114C2, 0x114C3), (0x114C6, 0x114C6),
    (0x115BF, 0x115D7), (0x1163F, 0x1163F), (0x11641, 0x11643), (0x11660, 0x1166C),
    (0x116B6, 0x116B7), (0x116B9, 0x116B9), (0x1172B, 0x1172B), (0x1173A, 0x1173F),
    (0x11839, 0x1183B), (0x118EA, 0x118F2), (0x1193D, 0x1193E), (0x11943, 0x11946),
    (0x119E0, 0x119E0), (0x119E2, 0x119E2), (0x11A33, 0x11A34), (0x11A3F, 0x11A47),
    (0x11A98, 0x11A9C), (0x11A9E, 0x11AA2), (0x11C3F, 0x11C3F), (0x11C41, 0x11C45),
    (0x11C5A, 0x11C6C), (0x11C70, 0x11C71), (0x11D42, 0x11D42), (0x11D44, 0x11D45),
    (0x11D97, 0x11D97), (0x11EF7, 0x11EF8), (0x11FC0, 0x11FF1), (0x11FFF, 0x11FFF),
    (0x12470, 0x12474), (0x12FF1, 0x12FF2), (0x13430, 0x13438), (0x16A6E, 0x16A6F),
    (0x16AF0, 0x16AF5), (0x16B30, 0x16B3F), (0x16B44, 0x16B45), (0x16B5B, 0x16B61),
    (0x16E80, 0x16E9A), (0x16FE2, 0x16FE2), (0x16FE4, 0x16FE4), (0x1BC9C, 0x1BC9D),
    (0x1BC9F, 0x1BCA3), (0x1CF00, 0x1CF2D), (0x1CF30, 0x1CF46), (0x1CF50, 0x1CFC3),
    (0x1D000, 0x1D0F5), (0x1D100, 0x1D126), (0x1D129, 0x1D1EA), (0x1D200, 0x1D245),
    (0x1D2E0, 0x1D2F3), (0x1D300, 0x1D356), (0x1D360, 0x1D378), (0x1D6C1, 0x1D6C1),
    (0x1D6DB, 0x1D6DB), (0x1D6FB, 0x1D6FB), (0x1D715, 0x1D715), (0x1D735, 0x1D735),
    (0x1D74F, 0x1D74F), (0x1D76F, 0x1D76F), (0x1D789, 0x1D789), (0x1D7A9, 0x1D7A9),
    (0x1D7C3, 0x1D7C3), (0x1D800, 0x1DA8B), (0x1DA9B, 0x1DA9F), (0x1DAA1, 0x1DAAF),
    (0x1E130, 0x1E136), (0x1E14F, 0x1E14F), (0x1E2AE, 0x1E2AE), (0x1E2EC, 0x1E2EF),
    (0x1E2FF, 0x1E2FF), (0x1E8C7, 0x1E8D6), (0x1E944, 0x1E946), (0x1E948, 0x1E94A),
    (0x1E95E, 0x1E95F), (0x1EC71, 0x1ECB4), (0x1ED01, 0x1ED3D), (0x1EEF0, 0x1EEF1),
    (0x1F000, 0x1F02B), (0x1F030, 0x1F093), (0x1F0A0, 0x1F0AE), (0x1F0B1, 0x1F0BF),
    (0x1F0C1, 0x1F0CF), (0x1F0D1, 0x1F0F5), (0x1F100, 0x1F12F), (0x1F14A, 0x1F14F),
    (0x1F16A, 0x1F16F), (0x1F18A, 0x1F1AD), (0x1F1E6, 0x1F202), (0x1F210, 0x1F23B),
    (0x1F240, 0x1F248), (0x1F250, 0x1F251), (0x1F260, 0x1F265), (0x1F300, 0x1F6D7),
    (0x1F6DD, 0x1F6EC), (0x1F6F0, 0x1F6FC), (0x1F700, 0x1F773), (0x1F780, 0x1F7D8),
    (0x1F7E0, 0x1F7EB), (0x1F7F0, 0x1F7F0), (0x1F800, 0x1F80B), (0x1F810, 0x1F847),
    (0x1F850, 0x1F859), (0x1F860, 0x1F887), (0x1F890, 0x1F8AD), (0x1F8B0, 0x1F8B1),
    (0x1F900, 0x1FA53), (0x1FA60, 0x1FA6D), (0x1FA70, 0x1FA74), (0x1FA78, 0x1FA7C),
    (0x1FA80, 0x1FA86), (0x1FA90, 0x1FAAC), (0x1FAB0, 0x1FABA), (0x1FAC0, 0x1FAC5),
    (0x1FAD0, 0x1FAD9), (0x1FAE0, 0x1FAE7), (0x1FAF0, 0x1FAF6), (0x1FB00, 0x1FB92),
    (0x1FB94, 0x1FBCA), (0xE0001, 0xE0001), (0xE0020, 0xE007F), (0xE0100, 0xE01EF),
    (0xF0000, 0xFFFFD), (0x100000, 0x10FFFD)]

def isSign (c : Char) : Bool := isWithin signRuns c

end GraphCodec.Text
