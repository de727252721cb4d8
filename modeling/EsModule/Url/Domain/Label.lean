import EsModule.Text.Composition
import EsModule.Text.Table

/-!
# What labels are made of

A domain name with letters that are written from right to left must not look like another one. So
each of its labels has one direction, that of its first letter, and ends in a letter of that
direction or in a digit; marks may follow. Letters of the other direction have no place in a label,
nor have digits of both kinds in one that goes from right to left.

Two characters without a shape of their own say whether the letters beside them are joined. In a
domain name they stand only where that makes a difference: behind the mark that removes the vowel of
a letter, and the one that parts letters also between two letters of a cursive script that would be
joined. Marks in between do not count.

The first rule is that of RFC 5893, the second the one of RFC 5892 for the two joiners; its rules for
other characters in context are left out, as in Unicode Technical Standard 46. Directions are those
of Unicode 17; later versions may give others to characters that are not assigned there.
-/

namespace EsModule.Url.Domain

open EsModule.Text

/-- How a character goes with the direction of a text. -/
inductive Direction where
  | leftToRight
  | rightToLeft
  /-- A digit of Europe. -/
  | europeanDigit
  /-- A digit of the Arabic script. -/
  | arabicDigit
  /-- A mark on the character in front of it. -/
  | mark
  /-- A sign that has no direction of its own. -/
  | neutral
deriving DecidableEq

/-- Where the letters that are written from right to left begin and end. -/
def rightToLeftBoundaries : Array Nat := numbers
  ["5be 5bf 5c0 5c1 5c3 5c4 5c6 5c7 5d0 606 608 609 60b 60c 60d 60e 61b 64b 66d 670 671 6d6 6e5",
   "6e7 6ee 6f0 6fa 711 712 730 74d 7a6 7b1 7eb 7f4 7f6 7fa 7fd 7fe 816 81a 81b 824 825 828 829",
   "830 859 85e 897 8a0 8ca fbb2 fbc3 fe73 10000 10800 1091f 10920 10a01 10a10 10a38 10a40 10ae5",
   "10aeb 10b39 10b40 10d24 10d4a 10d69 10d6f 10e60 10e80 10eab 10ead 10ed0 10f00 10f46 10f51",
   "10f82 10f86 11000 1e800 1e8d0 1e922 1e944 1e94b 1eef0"]

/-- Where the digits of Europe begin and end. -/
def europeanBoundaries : Array Nat := numbers
  ["30 3a 6f0 6fa 102e1 10300"]

/-- Where the digits of the Arabic script begin and end. -/
def arabicBoundaries : Array Nat := numbers
  ["660 66a 66b 66d 10d30 10d4a 10e60 10e80"]

/-- Where the marks begin and end. -/
def markBoundaries : Array Nat := numbers
  ["300 371 483 48b 591 5be 5bf 5c0 5c1 5c3 5c4 5c6 5c7 5d0 610 61b 64b 660 670 671 6d6 6de 6df",
   "6e5 6e7 6e9 6ea 6ee 711 712 730 74d 7a6 7b1 7eb 7f4 7fd 7fe 816 81a 81b 824 825 828 829 830",
   "859 85e 897 8a0 8ca 903 93a 93b 93c 93d 941 949 94d 94e 951 960 962 964 981 982 9bc 9bd 9c1",
   "9c7 9cd 9ce 9e2 9e6 9fe a03 a3c a3e a41 a5c a70 a72 a75 a76 a81 a83 abc abd ac1 ac9 acd ad0",
   "ae2 ae6 afa b02 b3c b3d b3f b40 b41 b47 b4d b57 b62 b66 b82 b83 bc0 bc1 bcd bd0 c00 c01 c04",
   "c05 c3c c3d c3e c41 c46 c58 c62 c66 c81 c82 cbc cbd ccc cd5 ce2 ce6 d00 d02 d3b d3d d41 d46",
   "d4d d4e d62 d66 d81 d82 dca dcf dd2 dd8 e31 e32 e34 e3f e47 e4f eb1 eb2 eb4 ebd ec8 ed0 f18",
   "f1a f35 f36 f37 f38 f39 f3a f71 f7f f80 f85 f86 f88 f8d fbe fc6 fc7 102d 1031 1032 1038 1039",
   "103b 103d 103f 1058 105a 105e 1061 1071 1075 1082 1083 1085 1087 108d 108e 109d 109e 135d",
   "1360 1712 1715 1732 1734 1752 1760 1772 1780 17b7 17be 17c6 17c7 17c9 17d4 17dd 17e0 1885",
   "1887 18a9 18aa 1920 1923 1927 1929 1932 1933 1939 1940 1a17 1a19 1a1b 1a1e 1a56 1a57 1a58",
   "1a61 1a62 1a63 1a65 1a6d 1a73 1a80 1ab0 1b04 1b34 1b35 1b36 1b3b 1b3c 1b3d 1b42 1b43 1b6b",
   "1b74 1b80 1b82 1ba2 1ba6 1ba8 1baa 1bab 1bae 1be6 1be7 1be8 1bea 1bed 1bee 1bef 1bf2 1c2c",
   "1c34 1c36 1c3b 1cd0 1cd3 1cd4 1ce1 1ce2 1ce9 1ced 1cee 1cf4 1cf5 1cf8 1cfa 1dc0 1e01 20d0",
   "2104 2cef 2cf3 2d7f 2d80 2de0 2e00 302a 302e 3099 309d a66f a673 a674 a67e a69e a6a0 a6f0",
   "a6f2 a802 a803 a806 a807 a80b a80c a825 a827 a82c a830 a8c4 a8ce a8e0 a8f2 a8ff a900 a926",
   "a92e a947 a952 a980 a983 a9b3 a9b4 a9b6 a9ba a9bc a9be a9e5 a9e6 aa29 aa2f aa31 aa33 aa35",
   "aa40 aa43 aa44 aa4c aa4d aa7c aa7d aab0 aab1 aab2 aab5 aab7 aab9 aabe aac0 aac1 aac2 aaec",
   "aaee aaf6 ab01 abe5 abe6 abe8 abe9 abed abf0 fb1e fbb2 fe20 fe45 101fd 10280 102e0 102e1",
   "10376 10380 10a01 10a10 10a38 10a40 10ae5 10aeb 10d24 10d30 10d69 10d6e 10eab 10ead 10efa",
   "10f00 10f46 10f51 10f82 10f86 11001 11002 11038 11047 11070 11071 11073 11075 1107f 11082",
   "110b3 110b7 110b9 110bb 110c2 110d0 11100 11103 11127 1112c 1112d 11136 11173 11174 11180",
   "11182 111b6 111bf 111c9 111cd 111cf 111d0 1122f 11232 11234 11235 11236 11238 1123e 1123f",
   "11241 11280 112df 112e0 112e3 112f0 11300 11302 1133b 1133d 11340 11341 11366 11380 113bb",
   "113c2 113ce 113cf 113d0 113d1 113d2 113d3 113e1 11400 11438 11440 11442 11445 11446 11447",
   "1145e 1145f 114b3 114b9 114ba 114bb 114bf 114c1 114c2 114c4 115b2 115b8 115bc 115be 115bf",
   "115c1 115dc 11600 11633 1163b 1163d 1163e 1163f 11641 116ab 116ac 116ad 116ae 116b0 116b6",
   "116b7 116b8 1171d 11720 11722 11726 11727 11730 1182f 11838 11839 1183b 1193b 1193d 1193e",
   "1193f 11943 11944 119d4 119dc 119e0 119e1 11a01 11a07 11a09 11a0b 11a33 11a39 11a3b 11a3f",
   "11a47 11a50 11a51 11a57 11a59 11a5c 11a8a 11a97 11a98 11a9a 11b60 11b61 11b62 11b65 11b66",
   "11b67 11c30 11c3e 11c92 11ca9 11caa 11cb1 11cb2 11cb4 11cb5 11d00 11d31 11d46 11d47 11d50",
   "11d90 11d93 11d95 11d96 11d97 11d98 11ef3 11ef5 11f00 11f02 11f36 11f3e 11f40 11f41 11f42",
   "11f43 11f5a 11fb0 13440 13441 13447 13460 1611e 1612a 1612d 16130 16af0 16af5 16b30 16b37",
   "16f4f 16f50 16f8f 16f93 16fe4 16ff0 1bc9d 1bc9f 1cf00 1cf50 1d167 1d16a 1d17b 1d183 1d185",
   "1d18c 1d1aa 1d1ae 1d242 1d245 1da00 1da37 1da3b 1da6d 1da75 1da76 1da84 1da85 1da9b 1df00",
   "1e000 1e100 1e130 1e137 1e2ae 1e2c0 1e2ec 1e2f0 1e4ec 1e4f0 1e5ee 1e5f0 1e6e3 1e6e4 1e6e6",
   "1e6e7 1e6ee 1e6f0 1e6f5 1e6fe 1e8d0 1e922 1e944 1e94b"]

/-- Where the signs without a direction begin and end. -/
def neutralBoundaries : Array Nat := numbers
  ["0 9 e 1c 21 30 3a 41 5b 61 7b df f7 f8 2b9 2bb 2c2 2d0 2d2 2ee 2ef 300 375 377 3f6 3f8 58a",
   "591 606 608 609 60b 60c 60d 60e 610 66a 66b 6de 6df 6e9 6ea 7f6 7fa 9f2 9f4 9fb 9fc af1 af9",
   "bf3 c00 c78 c7f e3f e40 f3a f3e 1390 13a0 1400 1401 169b 16a0 17db 17dc 17f0 1810 1940 1946",
   "19de 1a00 200c 20d0 2104 214e 218a 2336 237b 2395 2396 26ac 26ad 2800 2900 2c30 2ce5 2cec",
   "2cf9 2d00 2e00 3005 3008 3021 3030 3031 3037 303b 303d 3041 30a0 30a1 30fb 30fc 31c0 31f0",
   "4dc0 4e00 a490 a4d0 a60d a610 a673 a674 a67e a681 a700 a723 a788 a789 a828 a82c a838 a840",
   "a874 a880 ab6a abc0 fbc3 fe20 fe45 fe73 10101 10102 10140 1018d 10190 101d0 1091f 10920 10b39",
   "10b40 10d6e 10d6f 10ed0 10efa 11052 11066 11660 11680 11fd5 11fff 16fe2 16fe3 1cc00 1cf00",
   "1d1e9 1d242 1d245 1d2c0 1d300 1d360 1e2ff 1e4d0 1eef0 1f150 1f16d 1f170 1f1ad 1f1e6 1f260",
   "20000"]

/-- How a character goes with the direction of a text. -/
def Direction.ofChar (c : Char) : Direction :=
  if inClass rightToLeftBoundaries c.toNat then .rightToLeft
  else if inClass europeanBoundaries c.toNat then .europeanDigit
  else if inClass arabicBoundaries c.toNat then .arabicDigit
  else if inClass markBoundaries c.toNat then .mark
  else if inClass neutralBoundaries c.toNat then .neutral
  else .leftToRight

/-- Whether a domain name has to keep to the rules of direction when it holds a character. -/
def Direction.isBound (d : Direction) : Bool := d = .rightToLeft || d = .arabicDigit

/-- Whether the directions of the characters of a label go together. -/
def hasOneDirection (label : List Direction) : Bool :=
  let last := label.reverse.find? (· ≠ .mark)
  match label.head? with
  | none => true
  | some .leftToRight =>
    (last = some .leftToRight || last = some .europeanDigit) &&
      label.all fun d => !d.isBound
  | some .rightToLeft =>
    (last = some .rightToLeft || last = some .europeanDigit || last = some .arabicDigit) &&
      label.all (· ≠ .leftToRight) &&
      !(label.contains .europeanDigit && label.contains .arabicDigit)
  | some _ => false

/-- The character that parts letters. -/
def nonJoiner : Char := '\u200c'

/-- The character that joins letters. -/
def joiner : Char := '\u200d'

/-- Where the letters that are joined to the one behind them begin and end. -/
def joinsBehindBoundaries : Array Nat := numbers
  ["620 621 626 627 628 629 62a 62f 633 640 641 648 649 64b 66e 670 679 688 69a 6c0 6c1 6c3 6cc",
   "6cd 6ce 6cf 6d0 6d2 6fa 6fd 6ff 700 712 715 71a 71e 71f 728 729 72a 72b 72c 72d 72f 74e 759",
   "75c 76b 76d 771 772 773 775 778 77a 780 7ca 7eb 841 846 848 849 84a 854 855 856 860 861 862",
   "866 868 869 886 887 889 88e 88f 897 8a0 8aa 8af 8b1 8b3 8b9 8ba 8c9 1807 1808 1820 1880 1887",
   "18a9 18aa 18b0 a840 a873 10ac0 10ac5 10acd 10ace 10ad3 10add 10ade 10ae1 10aeb 10aef 10b80",
   "10b81 10b82 10b83 10b86 10b89 10b8a 10b8c 10b8d 10b8e 10b90 10b91 10bad 10baf 10d00 10d22",
   "10d23 10d24 10ec3 10ec5 10ec6 10ed0 10f30 10f33 10f34 10f45 10f51 10f54 10f70 10f74 10f76",
   "10f82 10fb0 10fb1 10fb2 10fb4 10fb8 10fb9 10fbb 10fbd 10fbe 10fc0 10fc1 10fc2 10fc4 10fc5",
   "10fca 10fe0 1e922 1e944"]

/-- Where the letters that are joined to the one in front of them begin and end. -/
def joinsBeforeBoundaries : Array Nat := numbers
  ["620 621 622 640 641 64b 66e 670 671 674 679 6d4 6d5 6d6 6ee 6f0 6fa 6fd 6ff 700 710 711 712",
   "730 74d 780 7ca 7eb 840 859 860 861 862 866 867 883 886 887 889 897 8a0 8ad 8ae 8c9 1807 1808",
   "1820 1880 1887 18a9 18aa 18b0 a840 a872 10ac0 10ac6 10ac7 10ac8 10ac9 10acb 10ace 10ad7 10ad8",
   "10ae2 10ae4 10ae5 10aeb 10af0 10b80 10b99 10ba9 10baf 10d01 10d24 10ec2 10ec5 10ec6 10ed0",
   "10f30 10f45 10f51 10f55 10f70 10f82 10fb0 10fb1 10fb2 10fb7 10fb8 10fc0 10fc1 10fc5 10fc9",
   "10fcb 1e922 1e944"]

/-- Where the characters that do not part joined letters begin and end. -/
def transparentBoundaries : Array Nat := numbers
  ["300 371 483 48b 591 5be 5bf 5c0 5c1 5c3 5c4 5c6 5c7 5d0 610 61b 64b 660 670 671 6d6 6de 6df",
   "6e5 6e7 6e9 6ea 6ee 711 712 730 74d 7a6 7b1 7eb 7f4 7fd 7fe 816 81a 81b 824 825 828 829 830",
   "859 85e 897 8a0 8ca 903 93a 93b 93c 93d 941 949 94d 94e 951 960 962 964 981 982 9bc 9bd 9c1",
   "9c7 9cd 9ce 9e2 9e6 9fe a03 a3c a3e a41 a5c a70 a72 a75 a76 a81 a83 abc abd ac1 ac9 acd ad0",
   "ae2 ae6 afa b02 b3c b3d b3f b40 b41 b47 b4d b57 b62 b66 b82 b83 bc0 bc1 bcd bd0 c00 c01 c04",
   "c05 c3c c3d c3e c41 c46 c58 c62 c66 c81 c82 cbc cbd cbf cc0 cc6 cc7 ccc cd5 ce2 ce6 d00 d02",
   "d3b d3d d41 d46 d4d d4e d62 d66 d81 d82 dca dcf dd2 dd8 e31 e32 e34 e3f e47 e4f eb1 eb2 eb4",
   "ebd ec8 ed0 f18 f1a f35 f36 f37 f38 f39 f3a f71 f7f f80 f85 f86 f88 f8d fbe fc6 fc7 102d 1031",
   "1032 1038 1039 103b 103d 103f 1058 105a 105e 1061 1071 1075 1082 1083 1085 1087 108d 108e",
   "109d 109e 135d 1360 1712 1715 1732 1734 1752 1760 1772 1780 17b7 17be 17c6 17c7 17c9 17d4",
   "17dd 17e0 1885 1887 18a9 18aa 1920 1923 1927 1929 1932 1933 1939 1940 1a17 1a19 1a1b 1a1e",
   "1a56 1a57 1a58 1a61 1a62 1a63 1a65 1a6d 1a73 1a80 1ab0 1b04 1b34 1b35 1b36 1b3b 1b3c 1b3d",
   "1b42 1b43 1b6b 1b74 1b80 1b82 1ba2 1ba6 1ba8 1baa 1bab 1bae 1be6 1be7 1be8 1bea 1bed 1bee",
   "1bef 1bf2 1c2c 1c34 1c36 1c3b 1cd0 1cd3 1cd4 1ce1 1ce2 1ce9 1ced 1cee 1cf4 1cf5 1cf8 1cfa",
   "1dc0 1e01 20d0 2104 2cef 2cf3 2d7f 2d80 2de0 2e00 302a 302e 3099 309d a66f a673 a674 a67e",
   "a69e a6a0 a6f0 a6f2 a802 a803 a806 a807 a80b a80c a825 a827 a82c a830 a8c4 a8ce a8e0 a8f2",
   "a8ff a900 a926 a92e a947 a952 a980 a983 a9b3 a9b4 a9b6 a9ba a9bc a9be a9e5 a9e6 aa29 aa2f",
   "aa31 aa33 aa35 aa40 aa43 aa44 aa4c aa4d aa7c aa7d aab0 aab1 aab2 aab5 aab7 aab9 aabe aac0",
   "aac1 aac2 aaec aaee aaf6 ab01 abe5 abe6 abe8 abe9 abed abf0 fb1e fbb2 fe20 fe45 101fd 10280",
   "102e0 102e1 10376 10380 10a01 10a10 10a38 10a40 10ae5 10aeb 10d24 10d30 10d69 10d6e 10eab",
   "10ead 10efa 10f00 10f46 10f51 10f82 10f86 11001 11002 11038 11047 11070 11071 11073 11075",
   "1107f 11082 110b3 110b7 110b9 110bb 110c2 110d0 11100 11103 11127 1112c 1112d 11136 11173",
   "11174 11180 11182 111b6 111bf 111c9 111cd 111cf 111d0 1122f 11232 11234 11235 11236 11238",
   "1123e 1123f 11241 11280 112df 112e0 112e3 112f0 11300 11302 1133b 1133d 11340 11341 11366",
   "11380 113bb 113c2 113ce 113cf 113d0 113d1 113d2 113d3 113e1 11400 11438 11440 11442 11445",
   "11446 11447 1145e 1145f 114b3 114b9 114ba 114bb 114bf 114c1 114c2 114c4 115b2 115b8 115bc",
   "115be 115bf 115c1 115dc 11600 11633 1163b 1163d 1163e 1163f 11641 116ab 116ac 116ad 116ae",
   "116b0 116b6 116b7 116b8 1171d 1171e 1171f 11720 11722 11726 11727 11730 1182f 11838 11839",
   "1183b 1193b 1193d 1193e 1193f 11943 11944 119d4 119dc 119e0 119e1 11a01 11a0b 11a33 11a39",
   "11a3b 11a3f 11a47 11a50 11a51 11a57 11a59 11a5c 11a8a 11a97 11a98 11a9a 11b60 11b61 11b62",
   "11b65 11b66 11b67 11c30 11c3e 11c3f 11c40 11c92 11ca9 11caa 11cb1 11cb2 11cb4 11cb5 11d00",
   "11d31 11d46 11d47 11d50 11d90 11d93 11d95 11d96 11d97 11d98 11ef3 11ef5 11f00 11f02 11f36",
   "11f3e 11f40 11f41 11f42 11f43 11f5a 11fb0 13440 13441 13447 13460 1611e 1612a 1612d 16130",
   "16af0 16af5 16b30 16b37 16f4f 16f50 16f8f 16f93 16fe4 16ff0 1bc9d 1bc9f 1cf00 1cf50 1d167",
   "1d16a 1d17b 1d183 1d185 1d18c 1d1aa 1d1ae 1d242 1d245 1da00 1da37 1da3b 1da6d 1da75 1da76",
   "1da84 1da85 1da9b 1df00 1e000 1e100 1e130 1e137 1e2ae 1e2c0 1e2ec 1e2f0 1e4ec 1e4f0 1e5ee",
   "1e5f0 1e6e3 1e6e4 1e6e6 1e6e7 1e6ee 1e6f0 1e6f5 1e6fe 1e8d0 1e922 1e944 1e950"]

/-- The combining class of the marks that remove the vowel of a letter. -/
def vowelRemover : Nat := 9

/-- Whether the first letter of some text, without the transparent characters in front of it, is of
a class. -/
def firstLetterIn (boundaries : Array Nat) (cs : List Char) : Bool :=
  (cs.find? fun c => inClass boundaries c.toNat || !inClass transparentBoundaries c.toNat).any
    fun c => inClass boundaries c.toNat

/-- Whether a joiner may stand between two texts, the first of which is given backwards. -/
def mayJoin (front : List Char) (c : Char) (behind : List Char) : Bool :=
  front.head?.any (Composition.combiningClass · = vowelRemover) ||
    (c == nonJoiner && firstLetterIn joinsBehindBoundaries front &&
      firstLetterIn joinsBeforeBoundaries behind)

/-- Whether all joiners in a text may stand there, behind some text that is given backwards. -/
def joinersFit (front : List Char) : List Char → Bool
  | [] => true
  | c :: cs =>
    ((c != nonJoiner && c != joiner) || mayJoin front c cs) && joinersFit (c :: front) cs

end EsModule.Url.Domain
