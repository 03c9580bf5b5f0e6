import ImportAtlas.Unicode.Ranges
/-!
# Binary properties

The properties a code point has or has not. Names are in small letters without
spaces, hyphens and underscores.
-/

namespace ImportAtlas.Unicode

/-- A binary property: its names and its code points. -/
structure Flag where
  names : List String
  ranges : Ranges

def flags : List Flag := [
  ⟨["asciihexdigit", "ahex"],
    .decode "xg975q5"⟩,
  ⟨["alphabetic", "alpha"],
    .decode ("y1p6pxf0a0405m1u1K94be47010ym0th1123106012101j1yi1Aa8B51x5206x8x7d101111108q43ta5xn16ez51747" ++
    "42a220gxfdz4ox091405n2ijo7a5n16708x9ab366yb1f124edi17212l16103337212110804114c1a04215412l161" ++
    "11111444121407310h5b218121l16111438121130f3l34217212l161114372121914114d0g115321331101131323" ++
    "b4432123060x8c121m1f37121281121123s317121m1914371212815213d2cc121x8271212105374m5121h3n18102" ++
    "6851017i1dxp5660xj110141n101i12241060e3x00xv71x34i4f1x3y3xm1024gxva32x510502xa1Gc132610132x8" ++
    "132x0132610132e1xo132y2x5fgyl253Pb2g1p5ya3a7jbkcjcc1211cxj2ie040y3yo7xa5y5au1b48nt24bxb4pxmr" ++
    "4xu2jxi0n1b2xhxj1e17xjx923axb1aexmm2ax32a5xa22x931511305Bvjx1bEl252x525271010101u2xk16103216" ++
    "33254c5216zk0d0gcz5040291034601010131a235440hx8VdxjxUmD46331cx510502xn70gm96161616161616161v" ++
    "xf0Kl2p874244yl621yp135xa1ythvxgfM0CJvy0RQcy3xd2Ec3fa1kxe573zgx782z62yhkk1x0oxjcy310xc53012a" ++
    "x05x2ds3xi1bf0gfa41xm9dim3y41010o22f23b5252596161xa1d6zqlGZ3cm4xgEE4Hd2z9x66c45b1c141011111z" ++
    "bx1Haixv2xlx8bzk41A6x4p6pbyo35252522x3b1p1i111e2dx2zqy5xkEbs3xgxfvdt5xa5t2x34714xaAtix34x34x" ++
    "78xjca1e16111a1e16113xjcFm9la7o51x918y55201xb11302mam9uy1i11alap6px6xn61y031157121sxas3sx371" ++
    "rrxlalaidhzey8xnxidxidx7x2r305mDqx91131g5xi23sa08lxahxekrm9y5xb4axo90donxih38x2309xv1391a010" ++
    "x3h1x12063xu610131e197xon317212l161114372121306056s910201x519102013113010xcy11213k2uy12110Bo" ++
    "xl26p5x2xu1030xrxl20y7q2dl6Bpxoz7xvv72027111t112123yt72xd251011rxi29hy750iy8z77yox0v81xc1610" ++
    "xht2l1dy96111xb3011121021o5111x4111310nxbE4m9g1x832zf0yfYpz6zehC3yOcz0fxxfh5pzYq5O6CRpxexShN" ++
    "o7uhyehtixfg3vk5iJgxcCjxvx0o2oxcya4xo7gy0110c69DClx9vz1ziELt316111F2f0t220e38IbyE4za5c387940" ++
    "BX1yk1y6112021231b10161y01327161r131410361Gj2o1o1u1o1u1o1u1o1u1o17xVku65Cl61g2611145xtx10zgx" ++
    "ca6g0G1tixbL4rD4t20Cfu1l81D0613111e1C4xry33030xBk31q1110201913101060401010121110201010101011" ++
    "102316131310191g52141gPkp6p6pzPmxFSvx0AEt2BQd2DFgfPdyJ2MtxL2AWa5EF9")⟩,
  ⟨["bidicontrol", "bidic"],
    .decode "xMs0CLh1q4xn3"⟩,
  ⟨["bidimirrored", "bidim"],
    .decode ("x81i010s010t010xd0f0zPu3xWt1yIs1a1xm1e1Bh0C033530313313101048501h539110171v2350912i5194214n2" ++
    "f83k171xxtdya023111253523dIjl251d807530441124401221a521ci13201020135162o1b14311214xa271x7501" ++
    "03452403410E00M333111e129xb7Jb927xPNt551B21i010s010t0101111xRXn0xp0xp0xp0xp0")⟩,
  ⟨["caseignorable", "ci"],
    .decode ("x7060b0x3010y7040104021LnBv41409110Dr6Cf050xhxc10111110xc0b5aa10x30akg0z571913x1010uqyraxqa4" ++
    "020onxb2xc07158x9xpxn010474036a1d0f0xq04380k1q021xp041412230u130b1xp0441140k1m510xq020138071" ++
    "b1u0xt0c0xi030xn012521371b1t0xq0206051k1s1xp14380k1t0y807210yq026b8z20289016y91r01010xnd1411" ++
    "5a1x390z63151121p142g3d02160f0yu0P02Zi2t1u1u1y0116802a3050xd4xj0y11x20zm2419062Cr120xq016101" ++
    "0276920x708xd2bk3xg0141050x88c1x032112xo0113012xq721y05yi21c16406031xixud0x2z4Jt012b2d2d2d1c" ++
    "481a02024xh41910d0gcxjx0yYb1zh2zt0f0z0vxf0Kl0x433450yt5yt2XUm0xD25Ee0z231910s3yg1ex1ye0n2z63" ++
    "31803040p150An1qhd0x67paxe2xg02321h0l1y252121c080x30b0xj012215110r0e15110z4492zp02040PVg0Ajg" ++
    "Ntf30cfx2020B907060b0x3010xf0xd1y30l2M10D20Al4xw551x918O621153x8240B51Nt3x60q410Fr1o0xk5y6ax" ++
    "h3zr0xmex9021a2xh3212040a0xi2x4417xu0c1xk8a320yv220116020At037l1xp130x5634y65d01010e1yl72210" ++
    "n0yk5104111De36111r1yl72011za0102510z50102314E3811E011040Ag32140x09x8523809522xec11C601210C9" ++
    "61510yil261111zq530111610y813010y10Ep1b1xk45010n0BClg6eHC8b32yK04xr693Ls2x81L20xvgy0111d1L-s" ++
    "31611zAu113AOsxd2mN029f26u3Ak2xZrxm4xh80e0m41exGg61g2611145xtx10B0dHg0xt3Lr4Du1Dj020715090Kg" ++
    "6zd7yRf4Uzw10uyvA0Df")⟩,
  ⟨["cased"],
    .decode ("y1p6pxf0a0405m1u1C2134Cf2x271u4z00xa32123106012101j1yi1Aa8B51x59x8yUnx510502xa13R0yl25yA2a5x" ++
    "a22y0Bvy0El252x525271010101u2xk1610321633254c5216zk0d0gcz5040291034601010131540235440hv31Vhx" ++
    "jxUmD46331cx51050+EixditA4z5331yck512Vlxa1d6yfPW06c4xw9p6pxB5yfz0x34x3zka1e16111a1e1611K3022" ++
    "1x918xC5xidxiytlalyUqxvRH0xvx0o2oVFcyk1y6112021231b10161y01327161r131410361Gj2o1o1u1o1u1o1u1" ++
    "o1u1o17xVk91j65E5xtyAiy3x-cp6p6p")⟩,
  ⟨["changeswhencasefolded", "cwcf"],
    .decode ("y1pyq0am17x001010101010101010101010101010101010101010101010101010102010101010101010111010101" ++
    "01010101010101010101010101010101010101110101011101112231112311110101110201112101130711111101" ++
    "01010101010102010101010101010102110121010101010101010101010101010101010101010101010101010101" ++
    "0107111201310101010Dm0xa0103080601210111g18m0c231101010101010101010101010112110112xixg010101" ++
    "01010101010101010101010101090101010101010101010101010101010101010101010101010101011101010101" ++
    "01020101010101010101010101010101010101010101010101010101010101010101010101010101010101010101" ++
    "01010102x5xg0yUox51050Va5yA296xa22G001010101010101010101010101010101010101010101010101010101" ++
    "01010101010101010101010101010101010101010101010101010101010101010101010101010101010101010101" ++
    "05120101010101010101010101010101010101010101010101010101010101010101010101010101010101010101" ++
    "0101010109785a78785b010101087gxf22255225b3c45225F903160xdfj0VipxVgxfxg0122010101310208210101" ++
    "01010101010101010101010101010101010101010101010101010101010101010101010101010101010101010101" ++
    "0801040+Gd010101010101010101010101010101010101010101010j010101010101010101010101010A70101010" ++
    "10101030101010101010101010101010101010101010101010101010101010101010a01011101010104010201030" ++
    "1010101010101010101414101010101010101310111010101010101010o0XqyfPW06c4xw9pxC5x7A8x3Asa1e1611" ++
    "xTaxiAtlyVqvRI0vy0o+O7x1")⟩,
  ⟨["changeswhencasemapped", "cwcm"],
    .decode ("y1p6pxq0am1u1xv1yj1r2d21104ys1h6q1110113113142011207020113550a1B60xa32132106012101j1xe3x0141" ++
    "A48B51x5ax6yUox510502xa22R0yl25yA2a5xa22Bp030g0zhAr201zl252x525271010101u2xk1610321633254c52" ++
    "16F903160r0hv31VhxjxUmzg11117z57331cx51050+EixdirA6d2xt9e32241o1xco1Ws0syfPW06c4xw9p6pxB5yfz" ++
    "0x34x3zka1e16111a1e1611xS3xidxiytlalyUqxvRH0xvx0o2o+Ncy3")⟩,
  ⟨["changeswhenlowercased", "cwl"],
    .decode ("y1pz5m16x10101010101010101010101010101010101010101010101010101010201010101010101020101010101" ++
    "01010101010101010101010101010101010111010311011122311123111101011102011121011307111111010101" ++
    "01010101020101010101010101021101210101010101010101010101010101010101010101010101010101010107" ++
    "111201310101010F10103080601210111g18x308010101010101010101010105020112xixg010101010101010101" ++
    "01010101010101090101010101010101010101010101010101010101010101010101011101010101010201010101" ++
    "0101010101010101010101010101010101010101010101010101010101010101010101010101010101010102x5yW" ++
    "9x51050SiylyAj06xa22G00101010101010101010101010101010101010101010101010101010101010101010101" ++
    "01010101010101010101010101010101010101010101010101010101010101010101010101010109010101010101" ++
    "01010101010101010101010101010101010101010101010101010101010101010101010101010101010109785a78" ++
    "785b010101087o7878784b4b3c4b4F903160xdfj0VipxVgxfxg01220101013102082101010101010101010101010" ++
    "10101010101010101010101010101010101010101010101010101010101010101010101010801040+Gd010101010" ++
    "101010101010101010101010101010101010j010101010101010101010101010A701010101010103010101010101" ++
    "0101010101010101010101010101010101010101010101010a010111010101040102010301010101010101010101" ++
    "414101010101010101310111010101010101010o0RVbpxC5x7A8x3Asa1e1611xTaxiAtlyVqvRI0vy0o+O7x1")⟩,
  ⟨["changeswhentitlecased", "cwt"],
    .decode ("z1pxq0x9n17101010101010101010101010101010101010101010101010101010102010101010101011101010101" ++
    "01010101010101010101010101010101010102010122010203050203220201010204020301020301040111110101" ++
    "01010101010111010101010101010121010301010101010101010101010101010101010101030101010101010101" ++
    "080211040101010151110113113142011207020113550a1B60xb0103032i0rx21132101010101010101010101014" ++
    "102020xkxf1010101010101010101010101010101010901010101010101010101010101010101010101010101010" ++
    "10101020101010101011101010101010101010101010101010101010101010101010101010101010101010101010" ++
    "101010101010101010101010xhx6zPg5yA2810De030g0zi010101010101010101010101010101010101010101010" ++
    "10101010101010101010101010101010101010101010101010101010101010101010101010101010101010101010" ++
    "10101010101650101010101010101010101010101010101010101010101010101010101010101010101010101010" ++
    "101010101010101885a78785a7878d2787878411603211832187a211Gm0x1f40WbpxW6xf10311010106020a01010" ++
    "10101010101010101010101010101010101010101010101010101010101010101010101010101010101010101010" ++
    "10801040cx51050+Ej010101010101010101010101010101010101010101010j010101010101010101010101010A" ++
    "7010101010101030101010101010101010101010101010101010101010101010101010101010a010201010101040" ++
    "401120101010101010101010b01010101010101040102010101010101010q0Ws0syfPW06c4xx9pxCdx7A8x3Ara1e" ++
    "1611xU3xiztlyVqvRI0vxro+Oex1")⟩,
  ⟨["changeswhenuppercased", "cwu"],
    .decode ("z1pxq0x9n17101010101010101010101010101010101010101010101010101010102010101010101011101010101" ++
    "01010101010101010101010101010101010102010122010203050203220201010204020301020301051111110101" ++
    "01010101011101010101010101011111030101010101010101010101010101010101010103010101010101010108" ++
    "0211040101010151110113113142011207020113550a1B60xb0103032i0rx2113210101010101010101010101410" ++
    "2020xkxf101010101010101010101010101010101090101010101010101010101010101010101010101010101010" ++
    "10102010101010101110101010101010101010101010101010101010101010101010101010101010101010101010" ++
    "1010101010101010101010xhx6yW8xa22To5yA2810De030g0zi01010101010101010101010101010101010101010" ++
    "10101010101010101010101010101010101010101010101010101010101010101010101010101010101010101010" ++
    "10101010101010165010101010101010101010101010101010101010101010101010101010101010101010101010" ++
    "1010101010101010101885a78785a7878d2xk114010321140332187a21140Gh0x1f40WbpxW6xf10311010106020a" ++
    "01010101010101010101010101010101010101010101010101010101010101010101010101010101010101010101" ++
    "0101010801040cx51050+Ej010101010101010101010101010101010101010101010j01010101010101010101010" ++
    "1010A7010101010101030101010101010101010101010101010101010101010101010101010101010a0102010101" ++
    "01040401120101010101010101010b01010101010101040102010101010101010q0Ws0syfPW06c4xx9pxCdx7A8x3" ++
    "Ara1e1611xU3xiztlyVqvRI0vxro+Oex1")⟩,
  ⟨["dash"],
    .decode "xd0xGs0xj0zO10xw50yw95xt0x70f0I60zw4020v140s0Ju0j0zf0xPIg1x50a0B90zP00Fu0"⟩,
  ⟨["defaultignorablecodepoint", "di"],
    .decode "Bd0R10Sc0yW21xOj1yl4x-r4q4xhfADk0xPArfDf0B00yf8xLB73BCf7UHQ5z-v"⟩,
  ⟨["deprecated", "dep"],
    .decode "G90xF90yE3010yx91yC55Rp1XTCm0"⟩,
  ⟨["diacritic", "dia"],
    .decode ("yu010y70604021LnAu1755h14091Dt4Ch0xnxc10111110A3741A614132y3qyraxqax21zu7x99grxt0g033s0ya0g0" ++
    "ze0g0ze0g0xf2xs0g070zn0ze0g0ze0g0zd1g0zs0zf0c510zb0d4yb1r0101041y2211xu0zg011x8144p610a1S12Z" ++
    "k1u0Aka90Gr2F40k720xge2a3e2by80f0x68xm1xq0b1y21y05yio406022xixuxgx35bx5aJt012b2d2d2d1zDg2Ft0" ++
    "Lq5z93yv0ZHi0c110s1yi1ex1z62z6061c0x50An0rhxp3x40yv0c0x40Al2y13xj0z4492A01PVg0U1fEe010xf0xd1" ++
    "y30Ts0xAv51x918Pt240B51Nr5x60q4Ic022y6axh3C00x90y81zo1xu0yc092z81Bi1yg1g0o634yp211d1yv030zr1" ++
    "Dr1zu0zm1zj0Ed1E2140As0yj0i0yh0J50E2011yh0y10H71n0BDceHCp0yK04xr6Nk1N2gyg1L-u31611DU1xd2mN02" ++
    "358726u3zQ2xtC26Hn0xt3Tu1T06zd212")⟩,
  ⟨["emoji"],
    .decode ("x306059zf040DYd0c0Co0m0yq5f1Hf1c0B60pa42C70D71a090xq314902021204020112030318250105bb1201110i" ++
    "021i5101131502141b15120511011k155132040202510201010603060a1f02040104210b1xg290e0e0Hk1Kf2j1xj" ++
    "040xCq0c0Op010zLHa0Ca0B01c1e029ybp11n0k028l1Bex12zf21122yi221E61xub51n7127c0232041d120819052" ++
    "c28220104060306ylxgy557233930113029D3b40Erxe191Bozgc3a3xo104f2b49")⟩,
  ⟨["emojicomponent", "ecomp"],
    .decode "x306059D+j0Cl0xTFb0xY+mpLr4xJg3UxPcyv"⟩,
  ⟨["emojimodifier", "emod"],
    .decode "zY-r4"⟩,
  ⟨["emojimodifierbase", "ebase"],
    .decode ("FMt0Cr0g3zPzn0xs22022zl12ali3042127010o0C9140l041Be234yj0g290b0Nv02087609922xo0xt11110h21cD5" ++
    "2xa8")⟩,
  ⟨["emojipresentation", "epres"],
    .decode ("EUq1Cd33020M91l1xibxb0j0d081h1518050l0711040207041s0x30104210xt2o0e0Wr1xj040zNBe0Ca0Bu029ybp" ++
    "10o0k02412l1Bex0c81y51lcxa44cg303y6101Bq2xud31ni0q1d0ymykxgy560322333b178D3b40Erxe191Bozgc3a" ++
    "3xo104f2b49")⟩,
  ⟨["extendedpictographic", "extpict"],
    .decode ("B9040DYd0c0Co0m0yq5f1Hf1c0B60pa42C70D71a090xq314902021204020112030318250105bb1201110i021i510" ++
    "1131502141b15120511011k155132040202510201010603060a1f02040104210b1xg290e0e0Hk1Kf2j1xj040xCq0" ++
    "c0Op010zLHa0x73z4bf1f0e1x59zg1c1e029jxnrea0k028139m6Br2zf21122yi22135Dt1xub51n7127c0232041d1" ++
    "20819052c28220104060306ylxgy5572g30152cCqx5c3xo7a5x87u1c32d9x6cxe191Boyo7eAhE0-t")⟩,
  ⟨["extender", "ext"],
    .decode ("Bn0Mo1Xe0Jp0Pm0A90yp0Tg0zv0yG30xo0P30Ie0y40AY90xb4z71yt2XUm0xLm0+20m0A90zc0l1Rzr0ywg1xKb0r04" ++
    "0xC70F50zk1Li2xCf0W00PH81xAs110e1YG81xBh0Wk2")⟩,
  ⟨["graphemebase", "grbase"],
    .decode ("x0yux1c1Ohzg72546101j1Cv7B51x52xh22xe01020209q45h9b01xdlf1z48061204v201ttyob0exa963n4090307e" ++
    "1o501a5vgx9xpxm10138312792s1117212l1610333011612110d1124n5015412l1611111142o310792210c018121" ++
    "l16111433801130f14b708117212l16111430206121f1124hb015321331101131323b5011321230lk6217121m1f3" ++
    "033j2112149791a121m1914312011n2114912ea121x8201152121142194p211h3n18102691667922cxf11b78cx51" ++
    "10141n1019119024109923x0n2q10101d1x3i05024xh7151cx5xc4060212o233f4c11251e1x710502Ho132610132" ++
    "x8132x0132610132e1xo132y25s3p6yl252Qs3yo7hdi319hec12fxj207711b839696a596yo742x1105y5au432241" ++
    "15703x924bxb4p6a3xo213xn10901185d9696dymxfa3371s9b2v416xn102210dxf815e3xt5xa2ab0d0731512205B" ++
    "vy0El252x525271010101u2xk1e1d251i22181a5n7xgg12q1c3x1xuAb4QpmalxUj2Ho315xc10502xn71fm9616161" ++
    "616161616x1ytx2p1yocClqxp6f1yl4z45xa1yt1yl9xf1YPc3xm9Grkxe40av2yf258Cskg12131o24496xn8y3aboc" ++
    "1x58ob0ct6xf1141211c1a461o1x86121b21710292v1xi1031242010og27b5252596161xr4zk1113396GZ3cm4xgE" ++
    "E4Hd2z9x66c4501n141011111Q9x0fg9mx21i13441A64As2u352525223616d12b1p1i111e2dx2zq524xc3yn1c30x" ++
    "fxcA3s3xggq4x39t5x5at1x44dxaAt296x34x34x78xjbb1e16111a1e16113xjcFm9la7o51x918y55201xb11302m1" ++
    "y788xgi115x03q5qx6xn4j2xef3121sa8787xvx0x46b9xl3s2q5p73c6ygy8xnxidxi7x9c96x58n81Cgu1x93021g5" ++
    "88x7x78lb8mh43x6rkm901xlf64t1120cxg412113eo799x3509h8x212bxj9017411f1jbh1r314511xv610131e1a6" ++
    "xe12d98117212l161114301013212130c6s910201x51011f011301211x7xn81301k1012uxf11601110202389B6xe" ++
    "1163202qx4xi811023b96cjxa101181696jsq3011409mBpxe9020z4yic72027111n1411631299y672x98313r0ax7" ++
    "614790613xdd028dy879yn03010yox1e9681x5e015as3vp07020yb6111x5l09965111x4411010796xb49Dmi239e1" ++
    "x3813mym0fxhdYqz6ze14bC3yOcz2dxxfh5pzYq5O6CRptc239xS6No7u194yg196t70axf7ea9161k5iJgxpC6yq5o2" ++
    "oxcya5xnbcy03e49DClx9vz1ziELt316111F2f0t220e38IbyE4za5c38792020zX0Ds3Jj6mfgyvzjxsDlax62xr52m" ++
    "17t4xsly130zqjcjcym9oA7yk1y6112021231b10161y01327161r131410361Gj2F32Nhxn3xi71d16xzku65E5xtAi" ++
    "xca62941G0tixb4950Kgr49Cmt2a40C0u1211162491D0613111e1C428xgy3704941Uhy3ycxsC231q111020191310" ++
    "1060401010121110201010101011102316131310191g52141gxk1Eexb4z3ce2e1e1x4aBdxosdxb4871e5Aq+o3g3c" ++
    "3Cp6b40fb4xn896x78t2b41e8x7Gn8d2c3a3xo104f2b497Ai1z6xw5xFSvx0AEt2BQd2DFgfPdyJ2MtxL2AWa5EF9")⟩,
  ⟨["graphemeextend", "grext"],
    .decode ("U0zfEj6E7xc10111110y8axgkg0z56252113x30uqyraxq890o3181214xb2xr8xan1vxn010474036a1t0xq0102380" ++
    "90a1q021xp041412230u130b1xp0441140k1m510xq011138072a1u0xr010c090x8030xn012521371b1t0xq021103" ++
    "21371b1s1xp110238090a1t0y8040221080yh026c7z2028b6y91r01010xnd14115a1x390z63151121p142g3d0216" ++
    "0f0Rv2Zi3s2t1u1y0116802a90xd210zl1x20zm2419062Cr120xq0161010276920xgxd2bk3xg942x68c1x0325xo0" ++
    "113014xo721Ao21c16406031C6xvMc0C3x0y-u2Ad0z0vNa5z91ZKk319x01yg1Eg03040p150An1qhd0x67pa10xc2x" ++
    "g0232120x40y352121c080xf0xj012215110xa180De02040PVg0T1fgfHe1Ot0D20Al4xQ621153x8240B51Nt3y14F" ++
    "t1yd5y6axh3zr0xmex9021a2xh32170xt2x4417xu0c1xk8108320yv2236020At037l1xp11010c090e634y3025102" ++
    "0124210e1yl72210n0yh02510201111Db0236111r1yl72011za01027z50102314E3811Dl0a340Ag32140x09x8523" ++
    "809522xec11C601210C961510yil261111zq530111610y813010Gr1b1xk452n0BD506eHC8b32yK04xr6xwo0xv3yh" ++
    "0b1PBb1AP1xd2mMu4358726u3Ak2xZrxm4xh80e0m41exGg61g261114z40B06Hn0xt3Ls3Du1Dj0207150Kq6zd6UBS" ++
    "lyvA0Df")⟩,
  ⟨["hexdigit", "hex"],
    .decode "xg975q5x-R9975q5"⟩,
  ⟨["idsbinaryoperator", "idsb"],
    .decode "H-g129Lh0"⟩,
  ⟨["idstrinaryoperator", "idst"],
    .decode "H-i1"⟩,
  ⟨["idcontinue", "idc"],
    .decode ("xg97p401pxf0a010205m1u1K94be47010hzk11231064101j1yi1Aa142B51x5206x88xc101111108q43ta5y94z517" ++
    "291i20gxq2z4exl40202xdir4a5n167ya1A0291i17212l1610332821238041142ba0102215412l16111111201441" ++
    "223073107fb218121l16111429121220f329961217212l1611142821227241142910g115321331101131323b4432" ++
    "132060e9gc121m1f2812137112112329g317121m19142812137152132912cc121xi1214537429a5121h3n1810263" ++
    "04510176921dxp5e19x7110141n101m2410161923x00n169b01010491x34j1h1x390xpy96yd2x510502xa1Gc1326" ++
    "10132x8132x0132610132e1xo132y22298efgyl253Pb2g1p5ya3a7l9lbjcc1211cyj304129x121a6yo7xa5y5au1b" ++
    "4bax724bxb4p6ax5r4xu1s2a69d08d1u2bkyc39h8czjcxn893xg2a5xa22g21x65Ml252x525271010101u2xk16103" ++
    "21633254c5216f1xh1j0s0d0gcxjc403bh0402910256010101f235440hx8yPnD468cx510502xn70fn96161616161" ++
    "616161vM52pe14244yl261yu5xa1ythvxgfM0CJvy0RQcy3xd2Ec3rkxf491zix582z62yhkxm40jxjcy5a96n301xg2" ++
    "x3cs3y0ea6u1xm9d296m3y8o22f24a5252596161xa1d6zq11296GZ3cm4xgEE4Hd2z9x66c45b1c141011111zbx1Ha" ++
    "ixv2xlx8b4fgf31o2x041A6j97p401payp35252522x3b1p1i111e2dx2zqy5xkA80A2s3xgf0vvdt5xa5t2x34714xa" ++
    "At296x34x34x78xjca1e16111a1e16113xjcFm9la7o51x918y55201xb11302mam9uy1i11alap6px6xn61y0311571" ++
    "21s2240x0s3sx371tpxlalaidhzey8xnxidxidx7896x5341mDqx91131g5xix2a08x0vlxakrm9y6vf9xr70do796xk" ++
    "19438x3209y4431c10x3h1x463xu610131e197xq596317212l1611141921222060562634b910201x51910201317d" ++
    "1tya5943uy51089B6xl28n5x2y030b9x6xo796jsq2e4966Bpxqz5y9l72027111t1128c9y672xd2711rxu808y930i" ++
    "y8z77yox0f9681xc18f9ot2l1dy96111xb3011188965111x41115796xb49Dmm9g1x834dayl0yfYpz6zehC3yOcz0f" ++
    "xxfglazYq5O6CRpxpxS6No7u196ye196t24bxm93c99k5iJgxc39C6xvx0o2oxcya4xo7gy0111b69DClx9vz1ziELt3" ++
    "16111F2f0t220e38IbyE4za5c387931Ayh9M6xd2mMu4358726u3Ak2Jryk1y6112021231b10161y01327161r13141" ++
    "0361Gj2o1o1u1o1u1o1u1o1u1o172xhM0xm4xh80e0m41exygu65Cl61g2611145xtx10zgxc3d2940G1uhxpKmx9Cmx" ++
    "aC5u1l81D0613111e1C4b6x9yb49xB631q1110201913101060401010121110201010101011102316131310191g52" ++
    "141gzFk9xw6xFSvx0AEt2BQd2DFgfPdyJ2MtxL2AWa5EF9RPA6Df")⟩,
  ⟨["idstart", "ids"],
    .decode ("y1p6pxf0a0405m1u1K94be47010A141123106012101j1yi1Aa8B51x5206x8y7q43xdxax311z210f171a220g01tty" ++
    "ob0ox091405l409030no7a5n16gx9xqxl30i079ff47212l16103330g0d112e1a085412l16111111v310j2g8121l1" ++
    "6111430i0f1n0b7212l16111430u112f0h015321331101131323bm0xk7121m1f30q21121u047121m191430u211f1" ++
    "h8121x820g05282o55h3n181026xqxf11c6xq110141n101911902410l3x00xv71x3r4zjxak0g5433031724cc0hx5" ++
    "10502xa1Gc132610132x8132x0132610132e1xo132y2x5fgyl253Pb2g1p5ya3a7hdiehec12fxjx3040y3yo7x8105" ++
    "y5auxht24bxb4pxmm9xkyi0ytxeh7xmtd1axbqx3x92ax32a5xa22x931511305Bvy0El252x525271010101u2xk161" ++
    "0321633254c5216zk0d0gcz50402910256010101f235440hx8yPnD46331cx510502xn70gm9616161616161616N62" ++
    "p874244yl441yp135xa1ythvxgfM0CJvy0RQcy3xd2Ec3fa1kxegu2yfx782z62yhkg12131mtxjexhxu53011bramps" ++
    "7xes0g419a41x8n217km303xh1031242010o22a72c5252596161xa1d6zitGZ3cm4xgEE4Hd2z9x66c450191c14101" ++
    "1111zbx1Haixv2xlx8bzk41A6x4p6pbyo35252522x3b1p1i111e2dx2zqy5xkEbs3xgxfvdt5x5at2x34714xaAtix3" ++
    "4x34x78xjca1e16111a1e16113xjcFm9la7o51x918y55201xb11302mam9uy1i11alap6px6xn61y00f3121sxas3sx" ++
    "371rrxlalaidhzey8xnxidxidx3x6r9mDqx961g5xosa08lxahxekrmcxkxp120dxcx0oqx3t0208x230cxfe3l010x3" ++
    "h1oj1xv610131e197xex67212l16111430i0c4u910201x510p010xcxki3k2uxfk110Boxex93x4xfk0xrxad0y7qx5" ++
    "6Bpxbzkxvv72027111nf010yu72x6g010s0ax770l0bxdj0iy8C7x0v81x4h0xhtzg6111x5l0p5111ve0nxbE4if01c" ++
    "1x1zs0yfYpz6zehC3yOcz0fxxfh5pzYq5O6CRptxT2No7uhyehtixfg3vk5iJgxcCjxvx0o2oxcya50y2cy0110e49DC" ++
    "lx9vz1ziELt316111F2f0t220e38IbyE4za5c3879BX6yk1y6112021231b10161y01327161r131410361Gj2o1o1u1" ++
    "o1u1o1u1o1u1o17xVku65E5xtAixca6g0G1tixbL4rD4t20Cfu1211162491D0613111e1C4xry370xBk31q11102019" ++
    "13101060401010121110201010101011102316131310191g52141gAG4xFSvx0AEt2BQd2DFgfPdyJ2MtxL2AWa5EF9")⟩,
  ⟨["ideographic", "ideo"],
    .decode "Iw61p8e2+5CJvy0QLvSE0Hd2z9ZEa0d49DClx9vz1ziEXtIbPE4xFSvx0AEt2BQd2DFgfPdyJ2MtxL2AWa5EF9"⟩,
  ⟨["joincontrol", "joinc"],
    .decode "Ewc1"⟩,
  ⟨["logicalorderexception", "loe"],
    .decode "zO04zr4yTg220xADq12011"⟩,
  ⟨["lowercase", "lower"],
    .decode ("z1pxf0a040x4n1710101010101010101010101010101010101010101010101010101011101010101010101110101" ++
    "01010101010101010101010101010101010101010201012201020314020322020101020111020301021226020201" ++
    "01010101010101110101010101010101120103010101010101010101010101010101010101010101010101010101" ++
    "01016202110401010101y42x271u4z00xb0103023i0rx21132101010101010101010101014102021xjxf10101010" ++
    "10101010101010101010101010901010101010101010101010101010101010101010101010101010201010101010" ++
    "11101010101010101010101010101010101010101010101010101010101010101010101010101010101010101010" ++
    "101010xgx8yW7xa13To5yA2810zlBvy1010101010101010101010101010101010101010101010101010101010101" ++
    "01010101010101010101010101010101010101010101010101010101010101010101010101010101010101018101" ++
    "01010101010101010101010101010101010101010101010101010101010101010101010101010101010101010101" ++
    "01885a78785a7878d2787878411603211832187a211zp0d0gczd03130r04040218340x1f40WbpxW6xf1031101010" ++
    "40111730101010101010101010101010101010101010101010101010101010101010101010101010101010101010" ++
    "10101010101011701040cx51050+Ej010101010101010101010101010101010101010101010j0101010101010101" ++
    "01010101012A50101010101012101010101010101010101010101010101010101010101010101010101010191010" ++
    "2010101010401020121010101010101010101050501010101010101040102010101010101010l31012Vlxa1d6yfP" ++
    "W06c4xx9pxCdx7A8x3Ara1e1611K30221x918xE5xiztlyVqvRI0vxroVG6pq61hqpq310161aqpqpqpqpqpqpqpqpqr" ++
    "so15qo15qo15qo15qo1510xVk91j65E5xtyBkx1")⟩,
  ⟨["math"],
    .decode ("xb0g2v0t010xd040x50v0So220q122Mf2CMd0r2b030d0e3l4b4y1c403144i04029102560312112153d10y4n15114" ++
    "14v1061eEb83k1yq0uq10o0b6Jt1c945412134e01025b751xp010t392GgxvE0Lvxgk25xP+s0Vn510B20g2t010t01" ++
    "0A3063zJ11xMH00xEfyk1y6112021231b10161y01327161r131410361Gj2F32xhBM031q111020191310106040101" ++
    "0121110201010101011102316131310191g52141gxk1yKu8")⟩,
  ⟨["noncharactercodepoint", "nchar"],
    .decode "x-KgvMe1x--u1x--u1x--u1x--u1x--u1x--u1x--u1x--u1x--u1x--u1x--u1x--u1x--u1x--u1x--u1x--u1"⟩,
  ⟨["patternsyntax", "patsyn"],
    .decode "x1ea6q310q3x2610111011404030n0v0DUon8e2i19FhSfB0PluxzbM0zvI124of0xPEd1E51"⟩,
  ⟨["patternwhitespace", "patws"],
    .decode "94i0z40DY81o1"⟩,
  ⟨["quotationmark", "qmark"],
    .decode "x2040A30f0DWs7p1zM70K93d2xPN13Bt040yq1"⟩,
  ⟨["radical"],
    .decode "HQ0p1yocCl"⟩,
  ⟨["regionalindicator", "ri"],
    .decode "zYL6p"⟩,
  ⟨["sentenceterminal", "sterm"],
    .decode ("x10c0g0xG90Aj2Bk0xb2Dm0xt01031F51xT41Um041U50C61At1xd050Fq1H23B21a121t2Br1y11Z40n192zBf2Fi0d" ++
    "0m1Jd0ZDs0Ee1D3030Hu1ym1yv0Ao1Aj2Ag1Dp0QN6021xr031B90c0g0y10yTk1xDt4xc3Bt1zl3zv2A1160g1yo111" ++
    "zc0Fa1zl1Hl15ez91Dp2M5010Dr1yn1J41Rk1ya1OV91A50y11b0N91F80PM60DL80")⟩,
  ⟨["softdotted", "sd"],
    .decode ("z91C40Ep0u0xk0k0G00z2010CE90xj0d030A40At0J50Cm1yVi0zFZ51xi1xi1xi1xi1xi1xi1xi1xi1xi1xi1xi1xi1" ++
    "yA60Fh1q0")⟩,
  ⟨["terminalpunctuation", "term"],
    .decode ("x10a010b130Vu080M10xp0y80e012Bk0xba10Db1xm517v0E51xDk1Bc045Fn1Ul7U50zs2y71At230x7321Fq1H23B2" ++
    "1a112t2Br4xu1Z40n192zBf2Fi0d040a01131Jc1ZDr1Ed2D34Hu1ym1yv0An2Aj2zv0g1Dp0QN6021xp213B90a010b" ++
    "130y1020xxq0xg0xA60C70Fm1Ao5y45yp3Zo4xc3Bt6zg3zv2A1160g1yo4zc0Fa1zl2c1H633ez91Dp2M5010Dr1yn1" ++
    "41Iu2xd0Q51ya1xFb4NLp1A50y12a0N91F71PM60DL73")⟩,
  ⟨["unifiedideograph", "uideo"],
    .decode "Jw0CJvy0QLvSMe11011a0101122yxKmxFSvx0AEt2BQd2DFgfPdAJ2AWa5EF9"⟩,
  ⟨["uppercase", "upper"],
    .decode ("y1pz5m16x10101010101010101010101010101010101010101010101010101010201010101010101020101010101" ++
    "01010101010101010101010101010101010111010311011122311123111101011102011121011307020202010101" ++
    "01010101020101010101010101020201210101010101010101010101010101010101010101010101010101010107" ++
    "111201310101010F10103080601210111g18x30223010101010101010101010105020112xixg0101010101010101" ++
    "01010101010101010901010101010101010101010101010101010101010101010101010111010101010102010101" ++
    "010101010101010101010101010101010101010101010101010101010101010101010101010101010101010102x5" ++
    "yW9x51050SiylyAj06xa22G001010101010101010101010101010101010101010101010101010101010101010101" ++
    "01010101010101010101010101010101010101010101010101010101010101010101010101010101090101010101" ++
    "0101010101010101010101010101010101010101010101010101010101010101010101010101010101010109785a" ++
    "78785b010101087y83c3c3c4b3E6040322220346010101323a150qfj0VipxVgxfxg0122010101310208210101010" ++
    "10101010101010101010101010101010101010101010101010101010101010101010101010101010101010101080" ++
    "1040+Gd010101010101010101010101010101010101010101010j010101010101010101010101010A70101010101" ++
    "01030101010101010101010101010101010101010101010101010101010101010a01011101010104010201030101" ++
    "0101010101010101414101010101010101310111010101010101010o0RVbpxC5x7A8x3Asa1e1611xTaxiAtlyVqvR" ++
    "I0vy0oVG7pqpqpq01120212317qpq1132716r113141036rpqpqpqpqpqpuox1ox1ox1ox1ox10AFlx1ywep6p6p")⟩,
  ⟨["variationselector", "vs"],
    .decode "Cwb210xVLgfWwTgDf"⟩,
  ⟨["whitespace", "wspace", "space"],
    .decode "94i0z40q0BKv0yHvat150xf0zZ00"⟩,
  ⟨["xidcontinue", "xidc"],
    .decode ("xg97p401pxf0a010205m1u1K94be47010hzk11321064101j1yi1Aa142B51x5206x88xc101111108q43ta5y94z517" ++
    "291i20gxq2z4exl40202xdir4a5n167ya1A0291i17212l1610332821238041142ba0102215412l16111111201441" ++
    "223073107fb218121l16111429121220f329961217212l1611142821227241142910g115321331101131323b4432" ++
    "132060e9gc121m1f2812137112112329g317121m19142812137152132912cc121xi1214537429a5121h3n1810263" ++
    "04510176921dxp5e19x7110141n101m2410161923x00n169b01010491x34j1h1x390xpy96yd2x510502xa1Gc1326" ++
    "10132x8132x0132610132e1xo132y22298efgyl253Pb2g1p5ya3a7l9lbjcc1211cyj304129x121a6yo7xa5y5au1b" ++
    "4bax724bxb4p6ax5r4xu1s2a69d08d1u2bkyc39h8czjcxn893xg2a5xa22g21x65Ml252x525271010101u2xk16103" ++
    "21633254c5216f1xh1j0s0d0gcxjc403bh0402910256010101f235440hx8yPnD468cx510502xn70fn96161616161" ++
    "616161vM52pe14244yl21221yu5xa1ythvxgfM0CJvy0RQcy3xd2Ec3rkxf491zix582z62yhkxm40jxjcy5a96n301x" ++
    "g2x3cs3y0ea6u1xm9d296m3y8o22f24a5252596161xa1d6zq11296GZ3cm4xgEE4Hd2z9x66c45b1c141011111zbx1" ++
    "Aa6Cpixv2xlx896fgf31o2x1010301010101ztj97p401payp35252522x3b1p1i111e2dx2zqy5xkA80A2s3xgf0vvd" ++
    "t5xa5t2x34714xaAt296x34x34x78xjca1e16111a1e16113xjcFm9la7o51x918y55201xb11302mam9uy1i11alap6" ++
    "px6xn61y031157121s2240x0s3sx371tpxlalaidhzey8xnxidxidx7896x5341mDqx91131g5xix2a08x0vlxakrm9y" ++
    "6vf9xr70do796xk19438x3209y4431c10x3h1x463xu610131e197xq596317212l1611141921222060562634b9102" ++
    "01x51910201317d1tya5943uy51089B6xl28n5x2y030b9x6xo796jsq2e4966Bpxqz5y9l72027111t1128c9y672xd" ++
    "2711rxu808y930iy8z77yox0f9681xc18f9ot2l1dy96111xb3011188965111x41115796xb49Dmm9g1x834dayl0yf" ++
    "Ypz6zehC3yOcz0fxxfglazYq5O6CRpxpxS6No7u196ye196t24bxm93c99k5iJgxc39C6xvx0o2oxcya4xo7gy0111b6" ++
    "9DClx9vz1ziELt316111F2f0t220e38IbyE4za5c387931Ayh9M6xd2mMu4358726u3Ak2Jryk1y6112021231b10161" ++
    "y01327161r131410361Gj2o1o1u1o1u1o1u1o1u1o172xhM0xm4xh80e0m41exygu65Cl61g2611145xtx10zgxc3d29" ++
    "40G1uhxpKmx9CmxaC5u1l81D0613111e1C4b6x9yb49xB631q1110201913101060401010121110201010101011102" ++
    "316131310191g52141gzFk9xw6xFSvx0AEt2BQd2DFgfPdyJ2MtxL2AWa5EF9RPA6Df")⟩,
  ⟨["xidstart", "xids"],
    .decode ("y1p6pxf0a0405m1u1K94be47010A141132106012101j1yi1Aa8B51x5206x8y7q43xdxax311z210f171a220g01tty" ++
    "ob0ox091405l409030no7a5n16gx9xqxl30i079ff47212l16103330g0d112e1a085412l16111111v310j2g8121l1" ++
    "6111430i0f1n0b7212l16111430u112f0h015321331101131323bm0xk7121m1f30q21121u047121m191430u211f1" ++
    "h8121x820g05282o55h3n181026xqxf10d6xq110141n101910a02410l3x00xv71x3r4zjxak0g5433031724cc0hx5" ++
    "10502xa1Gc132610132x8132x0132610132e1xo132y2x5fgyl253Pb2g1p5ya3a7hdiehec12fxjx3040y3yo7x8105" ++
    "y5auxht24bxb4pxmm9xkyi0ytxeh7xmtd1axbqx3x92ax32a5xa22x931511305Bvy0El252x525271010101u2xk161" ++
    "0321633254c5216zk0d0gcz50402910256010101f235440hx8yPnD46331cx510502xn70gm9616161616161616N62" ++
    "p874244yl621yp135xa1ythvxgfM0CJvy0RQcy3xd2Ec3fa1kxegu2yfx782z62yhkg12131mtxjexhxu53011bramps" ++
    "7xes0g419a41x8n217km303xh1031242010o22a72c5252596161xa1d6zitGZ3cm4xgEE4Hd2z9x66c450191c14101" ++
    "1111zbx1Aa6Cpixv2xlx89zn010301010101ztx4p6pbxn2u35252522x3b1p1i111e2dx2zqy5xkEbs3xgxfvdt5x5a" ++
    "t2x34714xaAtix34x34x78xjca1e16111a1e16113xjcFm9la7o51x918y55201xb11302mam9uy1i11alap6px6xn61" ++
    "y00f3121sxas3sx371rrxlalaidhzey8xnxidxidx3x6r9mDqx961g5xosa08lxahxekrmcxkxp120dxcx0oqx3t0208" ++
    "x230cxfe3l010x3h1oj1xv610131e197xex67212l16111430i0c4u910201x510p010xcxki3k2uxfk110Boxex93x4" ++
    "xfk0xrxad0y7qx56Bpxbzkxvv72027111nf010yu72x6g010s0ax770l0bxdj0iy8C7x0v81x4h0xhtzg6111x5l0p51" ++
    "11ve0nxbE4if01c1x1zs0yfYpz6zehC3yOcz0fxxfh5pzYq5O6CRptxT2No7uhyehtixfg3vk5iJgxcCjxvx0o2oxcya" ++
    "50y2cy0110e49DClx9vz1ziELt316111F2f0t220e38IbyE4za5c3879BX6yk1y6112021231b10161y01327161r131" ++
    "410361Gj2o1o1u1o1u1o1u1o1u1o17xVku65E5xtAixca6g0G1tixbL4rD4t20Cfu1211162491D0613111e1C4xry37" ++
    "0xBk31q1110201913101060401010121110201010101011102316131310191g52141gAG4xFSvx0AEt2BQd2DFgfPd" ++
    "yJ2MtxL2AWa5EF9")⟩]

/-- The code points with the property of this name. -/
def flag? (name : String) : Option Ranges := (flags.find? (·.names.contains name)).map (·.ranges)

/-- The letters and what behaves like them. -/
def alphabetic : Ranges := (flag? "alphabetic").getD []

end ImportAtlas.Unicode
