import ImportAtlas.Unicode.Ranges
/-!
# Scripts

The script of a code point, and the scripts it is used with (its script
extensions). Names are in small letters without spaces, hyphens and underscores.
-/

namespace ImportAtlas.Unicode

/-- A script: its names, its code points, and the code points used with it. -/
structure Script where
  names : List String
  ranges : Ranges
  extended : Ranges

def scripts : List Script := [
  ⟨["adlm", "adlam"],
    .decode "zWE0yb4941",
    .decode "xMv0x00CMe0zLh0zKRuyb4941"⟩,
  ⟨["aghb", "caucasianalbanian"],
    .decode "yxFgxjb0",
    .decode "U40xc0xc0ywKhxjb0"⟩,
  ⟨["ahom"],
    .decode "yBU0q2e4m",
    .decode "yBU0q2e4m"⟩,
  ⟨["arab", "arabic"],
    .decode ("xM04151d121v19bp1zb1x1ygxfDgx15ya1sxYOgLd2Afx0fzg41A6zX3uy3588x15xTU031q11102019131010604010" ++
    "10121110201010101011102316131310191g52141gxk1"),
    .decode ("xM041Cm1x1ygxfDgx15ya1sBWf0zLh0xPEePvx0fzg41A6-3ryX4uy3588x15xTU031q111020191310106040101012" ++
    "1110201010101011102316131310191g52141gxk1")⟩,
  ⟨["armi", "imperialaramaic"],
    .decode "yyy0l18",
    .decode "yyy0l18"⟩,
  ⟨["armn", "armenian"],
    .decode "xFhx52xh22xZI34",
    .decode "U80N8x52xh22xZI34"⟩,
  ⟨["avst", "avestan"],
    .decode "yyU0xl36",
    .decode "Bn0HHo1xTCexl36"⟩,
  ⟨["bali", "balinese"],
    .decode "CU0yc1xh",
    .decode "CU0yc1xh"⟩,
  ⟨["bamu", "bamum"],
    .decode "xFR0ynxME8No",
    .decode "xFR0ynxME8No"⟩,
  ⟨["bass", "bassavah"],
    .decode "yWSgt25",
    .decode "yWSgt25"⟩,
  ⟨["batk", "batak"],
    .decode "C+0xj83",
    .decode "C+0xj83"⟩,
  ⟨["beng", "bengali"],
    .decode "yI0317212l1610332821238041142o",
    .decode "Rs0xQk1h1q317212l1610332821238041142oASh01021108080204022xy-p0"⟩,
  ⟨["bhks", "bhaiksuki"],
    .decode "yDw081xc1das",
    .decode "yDw081xc1das"⟩,
  ⟨["bopo", "bopomofo"],
    .decode "Ta1HMpxazgv",
    .decode "S7012d0g1HEl2491ca32060C309xazgvxPA51Eq4"⟩,
  ⟨["brah", "brahmi"],
    .decode "yAw0yd4x390",
    .decode "yAw0yd4x390"⟩,
  ⟨["brai", "braille"],
    .decode "Gw0Dv",
    .decode "Gw0Dv"⟩,
  ⟨["bugi", "buginese"],
    .decode "CM0r21",
    .decode "CM0r21xzZf0"⟩,
  ⟨["buhd", "buhid"],
    .decode "BW0j",
    .decode "BVl19j"⟩,
  ⟨["cakm", "chakma"],
    .decode "yAE0xk1h",
    .decode "yL69xOg9ywBmxk1h"⟩,
  ⟨["cans", "canadianaboriginal"],
    .decode "Bw0PvNgy5ywJqf",
    .decode "Bw0PvNgy5ywJqf"⟩,
  ⟨["cari", "carian"],
    .decode "ywR0xg",
    .decode "Bn0DZ2020zKj0xRzexg"⟩,
  ⟨["cham"],
    .decode "xGM0xm9d2923",
    .decode "xGM0xm9d2923"⟩,
  ⟨["cher", "cherokee"],
    .decode "AZ0yl25xBXiyf",
    .decode "U021061m1b1Azeyl25xBXiyf"⟩,
  ⟨["chrs", "chorasmian"],
    .decode "yzZgr",
    .decode "yzZgr"⟩,
  ⟨["copt", "coptic", "qaac"],
    .decode "-2dGAgzj56",
    .decode "Bn0O803110zc1zcdGAgzj56En0xRC8r"⟩,
  ⟨["cpmn", "cyprominoan"],
    .decode "yHYgz2",
    .decode "ywE01HQez2"⟩,
  ⟨["cprt", "cypriot"],
    .decode "yyw05201xb113020",
    .decode "ywE024xc38xS05201xb113020"⟩,
  ⟨["cyrl", "cyrillic"],
    .decode "xw0A42B8BWgaB00yc0Az7v+y0yvRYe1xUM0xtx10",
    .decode "Rs0y321010102050DeFfBWgaB00yc0zv0z-7vy30Z-syvRYe1xUM0xtx10"⟩,
  ⟨["deva", "devanagari"],
    .decode "yE0yg4e2pxDX0vYM09",
    .decode "Rs0xO3yi2xaAWgx611-m0xxVv9B6vYM09"⟩,
  ⟨["diak", "divesakuru"],
    .decode "yCE062027111t112b99",
    .decode "yCE062027111t112b99"⟩,
  ⟨["dogr", "dogra"],
    .decode "yCw0xr",
    .decode "yH4bxDS09X+6xr"⟩,
  ⟨["dsrt", "deseret"],
    .decode "yxw0yf",
    .decode "yxw0yf"⟩,
  ⟨["dupl", "duployan"],
    .decode "zLw0za5c387923",
    .decode "Bn0Of110o1GUn0zzK3za5c387927"⟩,
  ⟨["egyp", "egyptianhieroglyphs"],
    .decode "yIw0xylazYq",
    .decode "yIw0xylazYq"⟩,
  ⟨["elba", "elbasan"],
    .decode "yxE0x7",
    .decode "Bn0Od0ywLqx7"⟩,
  ⟨["elym", "elymaic"],
    .decode "yz-0m",
    .decode "yz-0m"⟩,
  ⟨["ethi", "ethiopic"],
    .decode "AM0y8132610132x8132x0132610132e1xo132y22v3pCL6m9616161616161616-F2525259616yLBh613111e",
    .decode "Ue0zThy8132610132x8132x0132610132e1xo132y22v3pCL6m9616161616161616-F2525259616yLBh613111e"⟩,
  ⟨["gara", "garay"],
    .decode "yzG0x53s81",
    .decode "xMc0e030yxV0x53s81"⟩,
  ⟨["geor", "georgian"],
    .decode "AB0x510502xa13yYgxa22Ay0x51050",
    .decode "Bn0xCh0yUmx510502xfyYgxa22Yq0zB5x51050E30"⟩,
  ⟨["glag", "glagolitic"],
    .decode "Hw0yvzIZ061g261114",
    .decode "Bn0Ob010Hu020E10yXh0zWu0yZ5yvL30+xb0yKIg61g261114"⟩,
  ⟨["gong", "gunjalagondi"],
    .decode "yDH05111x4111579",
    .decode "Bn0yBc1yA-q5111x4111579"⟩,
  ⟨["gonm", "masaramgondi"],
    .decode "yDE06111xb30111889",
    .decode "yH41yAYq6111xb30111889"⟩,
  ⟨["goth", "gothic"],
    .decode "ywVgq",
    .decode "Bn0Oc120x80x--uq"⟩,
  ⟨["gran", "grantha"],
    .decode "yAU0317212l1611142821222060562634",
    .decode "yGh1h1Q0dACs011u231-m0xYMf317212l1611141921222060562634zyr110"⟩,
  ⟨["grek", "greek"],
    .decode "Xg3122310401012101j1xuefCF64xi444yk0G0l252x525271010101u2xk1e1d251i2218F70xyNu0RKqyeh0xQyvy5",
    .decode ("Bn0O81201010a0xe020xa72310401012101j1xuefCF64xi444yk2Ful252x525271010101u2xk1e1d251i2218yu0C" ++
    "80xyNu0RKqyeh0xQyvy5")⟩,
  ⟨["gujr", "gujarati"],
    .decode "yQ1218121l16111429121220f32b76",
    .decode "yGh1h1Er218121l16111429121220f32b76xDFg9"⟩,
  ⟨["gukh", "gurungkhema"],
    .decode "yUE0xp",
    .decode "yH50yRYqxp"⟩,
  ⟨["guru", "gurmukhi"],
    .decode "yM1215412l16111111201441223073107g",
    .decode "yGh1h1Ar215412l16111111201441223073107gxDJp9"⟩,
  ⟨["hang", "hangul"],
    .decode "AE0DvDNe1E1ytzhuy1uZT1sQ3GZ3cm4xgFZ4u35252522",
    .decode "AE0DvDM12491ce260C30xlytzhuy1uZT1sQ3GZ3cm4xgFO91Eq4xqu35252522"⟩,
  ⟨["hani", "han"],
    .decode "HQ0p1yocClxf010p8e3+4CJvy0QLvSE0Hd2z9ZE81c6xAw9xFSvx0AEt2BQd2DFgfPdyJ2MtxL2AWa5EF9",
    .decode ("Bn0HK8p1yocClqf121c1c1c2068Br0Akfx0x590xgx7xoxgfbxj0yooa4z0u1CJvy0QLvxU07QLoHd2z9Xb1Eq4Yzs1c" ++
    "6UX9hDSu1zJexFSvx0AEt2BQd2DFgfPdyJ2MtxL2AWa5EF9")⟩,
  ⟨["hano", "hanunoo"],
    .decode "BV0k",
    .decode "BV0m"⟩,
  ⟨["hatr", "hatran"],
    .decode "yyD0i1154",
    .decode "yyD0i1154"⟩,
  ⟨["hebr", "hebrew"],
    .decode "xIhxm8q45xZF8p1410111119",
    .decode "U71Q8xm8q45xZF8p1410111119"⟩,
  ⟨["hira", "hiragana"],
    .decode "Iy1yl62y-X1Eui0t2MBd0",
    .decode "Iw12491cg510413yl27yq1xPG81Eq4a0xd1xIz1Eui0t2MBd0"⟩,
  ⟨["hluw", "anatolianhieroglyphs"],
    .decode "yNw0O6",
    .decode "yNw0O6"⟩,
  ⟨["hmng", "pahawhhmong"],
    .decode "yWU0y5a9161k5i",
    .decode "yWU0y5a9161k5i"⟩,
  ⟨["hmnp", "nyiakengpuachuehmong"],
    .decode "zUE0xc3d2941",
    .decode "zUE0xc3d2941"⟩,
  ⟨["hung", "oldhungarian"],
    .decode "yzA0xidxi75",
    .decode "Eyq020zKj0f0xTNuxidxi75"⟩,
  ⟨["ital", "olditalic"],
    .decode "ywU0x392",
    .decode "ywU0x392"⟩,
  ⟨["java", "javanese"],
    .decode "xGI0yd2941",
    .decode "xGI0yd1a41"⟩,
  ⟨["kali", "kayahli"],
    .decode "xGE0xd10",
    .decode "xGE0xf"⟩,
  ⟨["kana", "katakana"],
    .decode "IB1yp22DgfCgxe1ynxPwe91xcxIyi3161110Ev2xi0e3",
    .decode "U50t0HCt2491cg51041yr33yvDgfCgxe1ynxOTd1EqxuxIyg3161110Ev2xi0e3"⟩,
  ⟨["kawi"],
    .decode "yDU0g1x83s",
    .decode "yDU0g1x83s"⟩,
  ⟨["khar", "kharoshthi"],
    .decode "yyM031157121s224978",
    .decode "yyM031157121s224978"⟩,
  ⟨["khmr", "khmer"],
    .decode "BY0yt2969L6v",
    .decode "BY0yt2969L6v"⟩,
  ⟨["khoj", "khojki"],
    .decode "yAM0h1xe",
    .decode "yT69xDG09WK6h1xe"⟩,
  ⟨["kits", "khitansmallscript"],
    .decode "yX-40CUrKlx90",
    .decode "yX-40CUrKlx90"⟩,
  ⟨["knda", "kannada"],
    .decode "zA0c121m19142812137152132912",
    .decode "yGh1h1Uqc121m19142812137152132912z+s01160n010xyVr5"⟩,
  ⟨["krai", "kiratrai"],
    .decode "yXG0xp",
    .decode "yXG0xp"⟩,
  ⟨["kthi", "kaithi"],
    .decode "yAA0y2a0",
    .decode "yH69FC10+Lu9Wy6y2a0"⟩,
  ⟨["lana", "taitham"],
    .decode "CN0xu1s2a696d",
    .decode "CN0xu1s2a696d"⟩,
  ⟨["laoo", "lao"],
    .decode "zQ1110141n101m2410161923",
    .decode "zQ1110141n101m2410161923"⟩,
  ⟨["latn", "latin"],
    .decode ("y1p6pxf0f05m1u1K0x74CMrx56xg535c1y5y1DvHh0d0gcAd160r0hx8ySnv+R2z53yhkeVgxa1813PYm6xwqp6pyx55" ++
    "1x918xRW5u65"),
    .decode ("y1p6pxf0c0205m1u1K030a01210901064re1110f27111x60504cEl1xCa1xZ80zw4x56xg535c1y5xp07DvFf0y10d0" ++
    "gcyj0xp160r0hx8ySnvIn0+D87qz53yhkeFe0M1xa1813PYm6xwqp6pyx551x918xRW5u65")⟩,
  ⟨["lepc", "lepcha"],
    .decode "Dw0xn3e32",
    .decode "Dw0xn3e32"⟩,
  ⟨["limb", "limbu"],
    .decode "CE0u1b4b403b",
    .decode "yH50zYqu1b4b403b"⟩,
  ⟨["lina", "lineara"],
    .decode "yxM0Fm9la7",
    .decode "ywE7xcxCcFm9la7"⟩,
  ⟨["linb", "linearb"],
    .decode "yww0b1p1i111e2dx2zq",
    .decode "yww0b1p1i111e2dx2zq524xc38"⟩,
  ⟨["lisu"],
    .decode "xFCgxf+Rg0",
    .decode "Rs0g0HFs1ZC4xf+Rg0"⟩,
  ⟨["lyci", "lycian"],
    .decode "ywQ0s",
    .decode "Eyq0xUN5s"⟩,
  ⟨["lydi", "lydian"],
    .decode "yyF0p50",
    .decode "Bn0HHp0xSTep50"⟩,
  ⟨["mahj", "mahajani"],
    .decode "yAGgx6",
    .decode "Bn0yBcbxDS09WEmx6"⟩,
  ⟨["maka", "makasar"],
    .decode "yDT0o",
    .decode "yDT0o"⟩,
  ⟨["mand", "mandaic"],
    .decode "yy0r20",
    .decode "xO00Lvr20"⟩,
  ⟨["mani", "manichaean"],
    .decode "yyS0x64b",
    .decode "xO00yxzvx64b"⟩,
  ⟨["marc", "marchen"],
    .decode "yDzgv2l1d",
    .decode "yDzgv2l1d"⟩,
  ⟨["medf", "medefaidrin"],
    .decode "yXO0yq",
    .decode "yXO0yq"⟩,
  ⟨["mend", "mendekikakui"],
    .decode "zWw0C42f",
    .decode "zWw0C42f"⟩,
  ⟨["merc", "meroiticcursive"],
    .decode "yyJ0n4j2xd",
    .decode "yyJ0n4j2xd"⟩,
  ⟨["mero", "meroitichieroglyphs"],
    .decode "yyI0v",
    .decode "Eyt0xWF2v"⟩,
  ⟨["mlym", "malayalam"],
    .decode "zE0c121xi12154f2p",
    .decode "yGh1h1Yqc121xi12154f2pzWq0n0xyVt2"⟩,
  ⟨["modi"],
    .decode "yBM0y4b9",
    .decode "xGxg9XK6y4b9"⟩,
  ⟨["mong", "mongolian"],
    .decode "Cw01201j6yo7xax-Jlc",
    .decode "Cw0p6yo7xaxY40z+h153xVOkc"⟩,
  ⟨["mroo", "mro"],
    .decode "yWO0u1941",
    .decode "yWO0u1941"⟩,
  ⟨["mtei", "meeteimayek"],
    .decode "xGT0mC9xd29",
    .decode "xGT0mC9xd29"⟩,
  ⟨["mult", "multani"],
    .decode "yAQ0610131e1a",
    .decode "yP69yywg610131e1a"⟩,
  ⟨["mymr", "myanmar"],
    .decode "Aw0AvxCG0uz1vXygj",
    .decode "Aw0AvxCAe0Bhuz1vXygj"⟩,
  ⟨["nagm", "nagmundari"],
    .decode "zVCgx9",
    .decode "zVCgx9"⟩,
  ⟨["nand", "nandinagari"],
    .decode "yCJ072xd2a",
    .decode "yGh0i1Y09z-p08070xyVl5YHa72xd2a"⟩,
  ⟨["narb", "oldnortharabian"],
    .decode "yyQ0v",
    .decode "yyQ0v"⟩,
  ⟨["nbat", "nabataean"],
    .decode "yyA0u88",
    .decode "yyA0u88"⟩,
  ⟨["newa"],
    .decode "yBw0yr14",
    .decode "yGh1AY201190601010xZUiyr14"⟩,
  ⟨["nkoo", "nko"],
    .decode "x+0xq22",
    .decode "xMc0e030J0xq22xZFu1"⟩,
  ⟨["nshu", "nushu"],
    .decode "yX-10MIeIb",
    .decode "yX-10MIeIb"⟩,
  ⟨["ogam", "ogham"],
    .decode "BQ0s",
    .decode "BQ0s"⟩,
  ⟨["olck", "olchiki"],
    .decode "Dygxf",
    .decode "Dygxf"⟩,
  ⟨["onao", "olonal"],
    .decode "zVKgxa40",
    .decode "yH41zTzaxa40"⟩,
  ⟨["orkh", "oldturkic"],
    .decode "yzw0y8",
    .decode "Eyq0zKl0xTKfy8"⟩,
  ⟨["orya", "oriya"],
    .decode "yU1217212l1611142821227241142h",
    .decode "yGh1h1Ir217212l1611142821227241142hAH20n0"⟩,
  ⟨["osge", "osage"],
    .decode "yxBgx34x3",
    .decode "U102060yc0ywGnx34x3"⟩,
  ⟨["osma", "osmanya"],
    .decode "yxA0t29",
    .decode "yxA0t29"⟩,
  ⟨["ougr", "olduyghur"],
    .decode "yzXgp",
    .decode "xO00yxBh0xztp"⟩,
  ⟨["palm", "palmyrene"],
    .decode "yyz0v",
    .decode "yyz0v"⟩,
  ⟨["pauc", "paucinhau"],
    .decode "yCS0xo",
    .decode "yCS0xo"⟩,
  ⟨["perm", "oldpermic"],
    .decode "ywWgxa",
    .decode "Bn0O8052a0Hf0x-Scxa"⟩,
  ⟨["phag", "phagspa"],
    .decode "xGy0xn",
    .decode "Cw2110yx90z+i0+xtxn"⟩,
  ⟨["phli", "inscriptionalpahlavi"],
    .decode "yyX0i57",
    .decode "yyX0i57"⟩,
  ⟨["phlp", "psalterpahlavi"],
    .decode "yyY0h73c6",
    .decode "xO00yxFvh73c6"⟩,
  ⟨["phnx", "phoenician"],
    .decode "yyE0r30",
    .decode "yyE0r30"⟩,
  ⟨["plrd", "miao"],
    .decode "yXU0ya4xo7g",
    .decode "yXU0ya4xo7g"⟩,
  ⟨["prti", "inscriptionalparthian"],
    .decode "yyW0l27",
    .decode "yyW0l27"⟩,
  ⟨["rjng", "rejang"],
    .decode "xGFgx3b0",
    .decode "xGFgx3b0"⟩,
  ⟨["rohg", "hanifirohingya"],
    .decode "yzE0x789",
    .decode "xMc0e030x00Aj0yxNbx789"⟩,
  ⟨["runr", "runic"],
    .decode "BR0ya3a",
    .decode "BR0yo"⟩,
  ⟨["samr", "samaritan"],
    .decode "yw0xd2e",
    .decode "yw0xd2eFLi0"⟩,
  ⟨["sarb", "oldsoutharabian"],
    .decode "yyP0v",
    .decode "yyP0v"⟩,
  ⟨["saur", "saurashtra"],
    .decode "xGA0y58b",
    .decode "xGA0y58b"⟩,
  ⟨["sgnw", "signwriting"],
    .decode "zSw0Qbf41e",
    .decode "zSw0Qbf41e"⟩,
  ⟨["shaw", "shavian"],
    .decode "yxygxf",
    .decode "Bn0ywYoxf"⟩,
  ⟨["shrd", "sharada"],
    .decode "yAI0yvyI07",
    .decode "yGh0AY501021209020xyW2520WG7yvyI07"⟩,
  ⟨["sidd", "siddham"],
    .decode "yBI0xl2x5",
    .decode "yBI0xl2x5"⟩,
  ⟨["sind", "khudawadi"],
    .decode "yARgxq59",
    .decode "yH41xDSa9WPmxq59"⟩,
  ⟨["sinh", "sinhala"],
    .decode "zI121h3n181026304510176922yw-cj",
    .decode "yH41xwr21h3n181026304510176922zTt0xZDej"⟩,
  ⟨["sogd", "sogdian"],
    .decode "yzVgx9",
    .decode "xO00yyDfx9"⟩,
  ⟨["sogo", "oldsogdian"],
    .decode "yzU0x7",
    .decode "yzU0x7"⟩,
  ⟨["sora", "sorasompeng"],
    .decode "yACgo79",
    .decode "yACgo79"⟩,
  ⟨["soyo", "soyombo"],
    .decode "yCOgyi",
    .decode "yCOgyi"⟩,
  ⟨["sund", "sundanese"],
    .decode "CY0xvE07",
    .decode "CY0xvE07"⟩,
  ⟨["sunu", "sunuwar"],
    .decode "yC+0x1e9",
    .decode "U01109020s030yCAex1e9"⟩,
  ⟨["sylo", "sylotinagri"],
    .decode "xGw0xc",
    .decode "yH41A09xDMgxc"⟩,
  ⟨["syrc", "syriac"],
    .decode "xU0d1xr22Ega",
    .decode "U312110o27111Sq0e120x00aaq0Afd1xr22EgaBId010"⟩,
  ⟨["tagb", "tagbanwa"],
    .decode "BX0c1211",
    .decode "BVl1x9c1211"⟩,
  ⟨["takr", "takri"],
    .decode "yBQ0xp69",
    .decode "yH41xDSa9XO6xp69"⟩,
  ⟨["tale", "taile"],
    .decode "CGgt24",
    .decode "U015130zFj9yE6t24"⟩,
  ⟨["talu", "newtailue"],
    .decode "CI0xb4p6a31",
    .decode "CI0xb4p6a31"⟩,
  ⟨["taml", "tamil"],
    .decode "yY2115321331101131323b4432132060ekyA+5xhd0",
    .decode "yGh1h1Ms115321331101131323b4432132060ekACv0xzwo0WMd010xn1zA3xhd0"⟩,
  ⟨["tang", "tangut"],
    .decode "yX-00vCTvM0uz1zi",
    .decode "H-gfLf0yLLg0vCTvM0uz1zi"⟩,
  ⟨["tavt", "taiviet"],
    .decode "xGQ0y2o4",
    .decode "xGQ0y2o4"⟩,
  ⟨["telu", "telugu"],
    .decode "zw0c121m1f281213711211232978",
    .decode "yGh1h1Qqc121m1f281213711211232978Ayl11010n0"⟩,
  ⟨["tfng", "tifinagh"],
    .decode "HFgxn71e0",
    .decode "U201013p0GMcxn71e0"⟩,
  ⟨["tglg", "tagalog"],
    .decode "BU0l90",
    .decode "BU0l90l1"⟩,
  ⟨["thaa", "thaana"],
    .decode "xY0xh",
    .decode "xMc0e120y09EmxhxZO00a0"⟩,
  ⟨["thai"],
    .decode "zM1xp5r",
    .decode "Rs0q0xb0xd0ySfxp5r"⟩,
  ⟨["tibt", "tibetan"],
    .decode "zU0y71x34x61x31e1641",
    .decode "zU0y71x34x61x31e1641Exd3"⟩,
  ⟨["tirh", "tirhuta"],
    .decode "yBA0y789",
    .decode "yGh1h1AXf0c0f0xyVt9Xy6y789"⟩,
  ⟨["tnsa", "tangsa"],
    .decode "yWPgye19",
    .decode "yWPgye19"⟩,
  ⟨["todr", "todhri"],
    .decode "yxK0xj",
    .decode "U1020209010ya0ywP1xj"⟩,
  ⟨["toto"],
    .decode "zUQgu",
    .decode "Rs0zT+ju"⟩,
  ⟨["tutg", "tulutigalari"],
    .decode "yAY0910201x519102013191181",
    .decode "zD69Aw2010xyVr5Br0WQe910201x519102013191181"⟩,
  ⟨["ugar", "ugaritic"],
    .decode "ywY0t10",
    .decode "ywY0t10"⟩,
  ⟨["vaii", "vai"],
    .decode "xFE0Fb",
    .decode "xFE0Fb"⟩,
  ⟨["vith", "vithkuqi"],
    .decode "yxHga1e16111a1e1611",
    .decode "yxHga1e16111a1e1611"⟩,
  ⟨["wara", "warangciti"],
    .decode "yCB0yic0",
    .decode "yCB0yic0"⟩,
  ⟨["wcho", "wancho"],
    .decode "zUS0xp50",
    .decode "zUS0xp50"⟩,
  ⟨["xpeo", "oldpersian"],
    .decode "ywZ0x34d",
    .decode "ywZ0x34d"⟩,
  ⟨["xsux", "cuneiform"],
    .decode "yEw0Ypz6ze14bC3",
    .decode "yEw0Ypz6ze14bC3"⟩,
  ⟨["yezi", "yezidi"],
    .decode "yzQ0x91221",
    .decode "xMc0e030y09yywmx91221"⟩,
  ⟨["yiii", "yi"],
    .decode "xEw0xAc3xm",
    .decode "Iw115927Cv0XU4xAc3xmSQq4"⟩,
  ⟨["zanb", "zanabazarsquare"],
    .decode "yCM0y7",
    .decode "yCM0y7"⟩,
  ⟨["zinh", "inherited", "qaai"],
    .decode ("U0zfEl1K4aq0T03AGrxd2bL421c16406031C6xvMc1C2x0zVp3zb1xPH5fgd+f0D20Ayq0xK+4xd2mN02h726u3UHWiD" ++
    "f"),
    .decode "Uf0201e36202f111h1413xLg1AGrxd2bSmxl1014Mc1C2vxTEgfgd+f0xPE2xd2mN02h726u3UHWiDf"⟩,
  ⟨["zyyy", "common"],
    .decode ("0y0q5qxe1e14n0v0K1x6542jzk0906010Pt060e030x00As0M40A11xCp0Il3F20xLf2y71Cb110xCd0d073151220U5" ++
    "b2ym1a3a1ehx1xux512251q1gx924QpmalYvE0Pj2A9M0ytIik101of743yr130yq1Ajfx0x590xgxvvygxf0yoB7CK0" ++
    "xvSE0x1z62B59Dk0B00Ib0e1QKi1Cg9mx21i13Aj01vq5qaa0xd1y0616a4E224xc38ygcxjxcD4qxKJ43zWsDs3Jj6m" ++
    "fgyvzjxsDlax62xt3g817t4xsCljcjcym9oA7yk1y6112021231b10161y01327161r131410361Gj2F32xhBzhy3ycx" ++
    "sS2xb4z3ce2e1e1x4aBdxop11dxb4871e5Aq+o3g3c3Cp6b40fb4xn896x78t2b41e8x7Gn8d2c3a3xo104f2b497Ai1" ++
    "z6Uxw60uyv"),
    .decode ("0y0q5qxe1b1114n0v0K12191030181015542jzu06010Pt0Cn0M40xGs0Il3Ax7b2x01u1911161a3a1ehx1xux51225" ++
    "1q1gx924QpmalYvE0Pj2A9M0m1n2913101pJ2030d0d0l0Mhnv0xhec3B195yvv0CK0xvSE8pz62+g0e1QR49mk2b1i1" ++
    "3Aj01vq5q5zv616a4IicxjxcxOM3Ds3Jj6mfgyvzjxsDlax62xt3g817t4xsCljcjcymr6A7yk1y6112021231b10161" ++
    "y01327161r131410361Gj2F32xhBzhy3ycxsS2xb4z3ce2e1e1x4aBdxop11dxb48n5Aq+o3g3c3Cp6b40fb4xn896x7" ++
    "8t2b41e8x7Gn8d2c3a3xo104f2b497Ai1z6Uxw60uyv")⟩,
  ⟨["zzzz", "unknown"],
    .decode ("Xo1637010k0Id0x61xi130xn7r36aEe0xs1z5dxr1xh1f0s110b4x24Dd08121m0701241912147132051p1306321m0" ++
    "7020202110532132164016h9309030m0702051a030311e41c670308121m0702051912136332051i9206230422010" ++
    "222232c3523041151dl4d030n0g190304620302141a6m030n0a051903046243041a03bd030xj03063g1q030i2o09" ++
    "0117213601085a13bxq3tx4201050o010n1501070a14vy80x43x70x40f0dx4C601411Hp041701041x9041x104170" ++
    "1041f0xp041y31x02q5ym161Qt2yp6m8o8kbd0302byu1a5a5q5yp6xb4y69v0c3c312xa15axc3q5b2xu1y10t1b5a5" ++
    "e1xe1cjyd0B67xs2f2xu4xb1b7xb4Mm161x616180101010v1xl0f0e160j13090z50c1r0d2x2dx1eAc3QqlbkxUk1H" ++
    "u4xd01411xo62do87070707070707070zux1q0ypbCmpyg0ym1z74xb0yu0ym8xg0YPd2xn8GsjBo7Ctjxs2a5xo7y67" ++
    "c5zkau2ye0b3x10xn8e1a1z7ns96161687070xs3zu1a5GZ4bn3xh3yw0CDvHe1zax57b54q050102020Qavxa5xj0j0" ++
    "4350A7110Bu261616132707951c0q0j020f1ex1zr433xd2yo0d21xexeA1t2xhes3x48u4xb4u0x53ex9Au1a5x43x4" ++
    "3x87xkac0f07020b0f07022xkbFn8m98n60xa09y46110xc02211n0y879xfj024x12r4rx5xo3k1xi0248030t133a6" ++
    "96y0vx73c8xm2t1r4q64b7yfy9xmxjcxj6xe7a5x62t72Cfv0xa0312f679x0xe7xalqx5sjn8ye3x48y4911p6a5xl0" ++
    "i7x78z00kai0xfxt701040f0b5xr4a5408121m0702050a12131151471725aa01110x60a0111040a0272sys05ty87" ++
    "aB5xm1x6x1y5aa5dixq5a5krr1f3nBoxsz3yjb81118020u021c8ay581xe1bqy87yjcy96ayl8ynx2da590xd0e9t2x" ++
    "01m0ey87020xc2102097a56020x502066a5xc3aDlp6h0x92tyk1exicYrz5zf05aC4yObz3cxym9zYr4O7CRoxqxS5N" ++
    "p6v0a3yh0a5u169y69a070l4jJfxqC5yr4p1pxbyb3xp6hxv5a78DCmx8x0z0zjELs407020F3e1s311d47IcyE3zb4d" ++
    "296a18zWrDt2Jk5nehexe1n8zkxrDm9x71C2ky6zpkbkbyn8pA6yl0y7021112140c01070y10418070s040501270Gk" ++
    "1F41Rue50fxyfv56Ck70h1702054xux01zfxd2e1a32Fvvgxq41KfxaClxb31Bvv0m72Cv704020f0C51gx8yc3a32Ug" ++
    "y4ybxtC140r0201110a040101513101010302011101010101020114070404010a0h43050hxj2Edxc3z4bf1f0f0x5" ++
    "9Bexntcxc3962d6Ap+p2h2d2Cq5c31ec3xo7a5x87u1c32d9x6Go7e1d2b2xp013g1c3a6Aj0z7xw4xFT0vAEu1BQe1D" ++
    "FhePeyJ1MuxL1AWb4EFaROY61tz0zvDgB-Mf"),
    .decode ("Xo1637010k0Id0x61xi130xn7r36aEe0xs1z5dxr1xh1f0s110b4x24Dd08121m0701241912147132051p1306321m0" ++
    "7020202110532132164016h9309030m0702051a030311e41c670308121m0702051912136332051i9206230422010" ++
    "222232c3523041151dl4d030n0g190304620302141a6m030n0a051903046243041a03bd030xj03063g1q030i2o09" ++
    "0117213601085a13bxq3tx4201050o010n1501070a14vy80x43x70x40f0dx4C601411Hp041701041x9041x104170" ++
    "1041f0xp041y31x02q5ym161Qt2yp6m8o8kbd0302byu1a5a5q5yp6xb4y69v0c3c312xa15axc3q5b2xu1y10t1b5a5" ++
    "e1xe1cjyd0B67xs2f2xu4xb1b7xb4Mm161x616180101010v1xl0f0e160j13090z50c1r0d2x2dx1eAc3QqlbkxUk1H" ++
    "u4xd01411xo62do87070707070707070zux1q0ypbCmpyg0ym1z74xb0yu0ym8xg0YPd2xn8GsjBo7Ctjxs2a5xo7y67" ++
    "c5zkau2ye0b3x10xn8e1a1z7ns96161687070xs3zu1a5GZ4bn3xh3yw0CDvHe1zax57b54q050102020Qavxa5xj0j0" ++
    "4350A7110Bu261616132707951c0q0j020f1ex1zr433xd2yo0d21xexeA1t2xhes3x48u4xb4u0x53ex9Au1a5x43x4" ++
    "3x87xkac0f07020b0f07022xkbFn8m98n60xa09y46110xc02211n0y879xfj024x12r4rx5xo3k1xi0248030t133a6" ++
    "96y0vx73c8xm2t1r4q64b7yfy9xmxjcxj6xe7a5x62t72Cfv0xa0312f679x0xe7xalqx5sjn8ye3x48y4911p6a5xl0" ++
    "i7x78z00kai0xfxt701040f0b5xr4a5408121m0702050a12131151471725aa01110x60a0111040a0272sys05ty87" ++
    "aB5xm1x6x1y5aa5dixq5a5krr1f3nBoxsz3yjb81118020u021c8ay581xe1bqy87yjcy96ayl8ynx2da590xd0e9t2x" ++
    "01m0ey87020xc2102097a56020x502066a5xc3aDlp6h0x92tyk1exicYrz5zf05aC4yObz3cxym9zYr4O7CRoxqxS5N" ++
    "p6v0a3yh0a5u169y69a070l4jJfxqC5yr4p1pxbyb3xp6hxv5a78DCmx8x0z0zjELs407020F3e1s311d47IcyE3zb4d" ++
    "296a18zWrDt2Jk5nehexe1n8zkxrDm9x71C2ky6zpkbkbyn8pA6yl0y7021112140c01070y10418070s040501270Gk" ++
    "1F41Rue50fxyfv56Ck70h1702054xux01zfxd2e1a32Fvvgxq41KfxaClxb31Bvv0m72Cv704020f0C51gx8yc3a32Ug" ++
    "y4ybxtC140r0201110a040101513101010302011101010101020114070404010a0h43050hxj2Edxc3z4bf1f0f0x5" ++
    "9Bexntcxc3962d6Ap+p2h2d2Cq5c31ec3xo7a5x87u1c32d9x6Go7e1d2b2xp013g1c3a6Aj0z7xw4xFT0vAEu1BQe1D" ++
    "FhePeyJ1MuxL1AWb4EFaROY61tz0zvDgB-Mf")⟩]

/-- The script of this name. -/
def script? (name : String) : Option Script := scripts.find? (·.names.contains name)

end ImportAtlas.Unicode
