import ImportAtlas.Unicode.Ranges
/-!
# General categories

Unicode's general category of a code point. Every code point has one; a group of
categories (letters, marks, …) is their union. Names are in small letters without
spaces, hyphens and underscores.
-/

namespace ImportAtlas.Unicode

/-- A general category: its names and its code points. -/
structure Category where
  names : List String
  ranges : Ranges

/-- The categories. That of surrogates is left out: they are no characters. -/
def categories : List Category := [
  ⟨["lu", "uppercaseletter"],
    .decode ("y1pz5m16x10101010101010101010101010101010101010101010101010101010201010101010101020101010101" ++
    "01010101010101010101010101010101010111010311011122311123111101011102011121011307020202010101" ++
    "01010101020101010101010101020201210101010101010101010101010101010101010101010101010101010107" ++
    "111201310101010F10103080601210111g18x30223010101010101010101010105020112xixg0101010101010101" ++
    "01010101010101010901010101010101010101010101010101010101010101010101010111010101010102010101" ++
    "010101010101010101010101010101010101010101010101010101010101010101010101010101010101010102x5" ++
    "yW9x51050SiylyAj06xa22G001010101010101010101010101010101010101010101010101010101010101010101" ++
    "01010101010101010101010101010101010101010101010101010101010101010101010101010101090101010101" ++
    "0101010101010101010101010101010101010101010101010101010101010101010101010101010101010109785a" ++
    "78785b010101087y83c3c3c4b3E6040322220346010101323a150xt0yPsxfxg01220101013102082101010101010" ++
    "10101010101010101010101010101010101010101010101010101010101010101010101010101010101010801040" ++
    "+Gd010101010101010101010101010101010101010101010j010101010101010101010101010A701010101010103" ++
    "0101010101010101010101010101010101010101010101010101010101010a010111010101040102010301010101" ++
    "010101010101414101010101010101310111010101010101010o0RVbpxC5x7A8x3Asa1e1611xTaxiAtlyVqvRI0vy" ++
    "0oVG7pqpqpq01120212317qpq1132716r113141036rpqpqpqpqpqpuox1ox1ox1ox1ox10AFlx1")⟩,
  ⟨["ll", "lowercaseletter"],
    .decode ("z1pxq0x9n17101010101010101010101010101010101010101010101010101010111010101010101011101010101" ++
    "01010101010101010101010101010101010102010122010203140203220201010201110203010212260202010101" ++
    "01010101011101010101010101011201030101010101010101010101010101010101010101010101010101010101" ++
    "6202110401010101y42pC10103032i0rx21132101010101010101010101014102021xjxf10101010101010101010" ++
    "10101010101010901010101010101010101010101010101010101010101010101010201010101010111010101010" ++
    "10101010101010101010101010101010101010101010101010101010101010101010101010101010101010xgx8yW" ++
    "7xa22To5yA2810zlxbxvc1x1z6010101010101010101010101010101010101010101010101010101010101010101" ++
    "01010101010101010101010101010101010101010101010101010101010101010101010101010101018101010101" ++
    "0101010101010101010101010101010101010101010101010101010101010101010101010101010101010101885a" ++
    "78785a7878d2787878411603211832187a211Ei03130r04040218340xl0yRbxf1031101010401115501010101010" ++
    "10101010101010101010101010101010101010101010101010101010101010101010101010101010101010117010" ++
    "40cx51050+Ej010101010101010101010101010101010101010101010j010101010101010101010101010A701010" ++
    "10101012101010101010101010101010101010101010101010101010101010101010101710102010101010401020" ++
    "121010101010101010101050501010101010101040102010101010101010q030Vlxa587yfPW06c4xx9pxCdx7A8x3" ++
    "Ara1e1611xU3xiztlyVqvRI0vxroVG6pq61hqpq310161aqpqpqpqpqpqpqpqpqrso15qo15qo15qo15qo1510xVk91j" ++
    "65yLnx1")⟩,
  ⟨["lt", "titlecaseletter"],
    .decode "K502020x60DIl78787c0f0xf0"⟩,
  ⟨["lm", "modifierletter"],
    .decode ("Rgh4be47010A5050Ku0D60B41Ed140v09030B00B70xCk0zv0Nl0xSq0zb0P30Kg5Bexud0x2x4Rh0d0gcy+v1Dh0Bv0" ++
    "Kl0xb450z11yt2XUm0xD25Ee0zi0s1zp8yg0n0z8331Kl0m0A90zc0l1z7390Rw60xd1x-051x918xIj0x00Gl0zUj0P" ++
    "H63Ls2x81N6cy0110e1L-s31611IxhxtC96Zd0Mj0Ob0")⟩,
  ⟨["lo", "otherletter"],
    .decode ("Ba0f0E0043Cg1Vqq43xdv19x311z210o1a220g01ttyob0ox0llxao7a5n16gx8xrxl30i079ge47212l16103330g0d" ++
    "112e1a085412l16111111v310j2g8121l16111430i0f1n0b7212l16111430u112f0h015321331101131323bm0xk7" ++
    "121m1f30q21121u047121m191430u211f1h8121x820g05282o55h3n181026xqxf11c5xr110141n1019119024n3x0" ++
    "0xv71x3r4zjxak0g5433031724cc0zhG8132610132x8132x0132610132e1xo132y2x5fzhPb2g1p5ya677hdiehec1" ++
    "2fxjx80y3x21xk742x1105y5auxht24bxb4pxmm9xkBgxeh7xmtd1axbqx3x92atzh3151130xxq3y-nxnom96161616" ++
    "16161616N70xl04yl801yp405xa1ythvxgfM0CJvy0QMk1xzmy3x78Eb4fa1y20xhy5B90z703612131mtxjexhxu530" ++
    "11bramps7xexd428a41x8n217kf15303xh1031242010o13a70e525259616Ahx2tGZ3cm4xgEE4Hd2z9y30191c1410" ++
    "11111zbx1Haixv2xlx8bzk41A6z991xc2u35252522x3b1p1i111e2dx2zqI5s3xgxfvdj176x5at2x347A0ydz2x78x" ++
    "jysxjcFm9la7Ao5201xb11302mam9uy1i11alap6px6xn61y00f3121sxas3sx371rrxlalaidhzey8Bnx3x6310Fgx9" ++
    "61g211xosa08lxahxekrmcxkxp120dxcx0oqx3t0208x230cxfe3l010x3h1oj1xv610131e197xex67212l16111430" ++
    "i0c4u910201x510p010xcxki3k2uxfk110Boxex93x4xfk0xrxad0y7qx56BpxbCj72027111nf010yu72x6g010s0ax" ++
    "770l0bxdj0iy8C7x0v81x4h0xhtzg6111x5l0p5111ve0nx811E4if01c1x1zs0yfYpD6C3yOcz0fxxfh5pzYq5O6CRp" ++
    "txT2No7uhyehtixfxjk5iJjx7Ilya50BfDClx9vz1ziEMdF2f0t220e38IbyE4za5c3879EPg0Llxcx10G1tixbL4qD5" ++
    "t20Cfu1211162490D1613111e1C4xFr31q1110201913101060401010121110201010101011102316131310191g52" ++
    "141gAG4xFSvx0AEt2BQd2DFgfPdyJ2MtxL2AWa5EF9")⟩,
  ⟨["mn", "nonspacingmark"],
    .decode ("U0zfEj4E9xc10111110y8axgkg0z56252113x30uqyraxq890o3181214xb2xr8xan1vxn010474036a1t0xq04380k1" ++
    "q021xp041412230u130b1xp0441140k1m510xq020138071b1u0xt0c0xi030xn012521371b1t0xq0206051k1s1xp1" ++
    "4380k1t0y807210yq026c7z2028b6y91r01010xnd14115a1x390z63151121p142g3d02160f0Rv2Zi2t1u1u1y0116" ++
    "802a90xd210zl1x20zm2419062Cr120xq0161010276920xgd1u2bk3xg0141050x88c1x032112xo0113012xq721Ao" ++
    "21c16406031C6xvSgc403by-u2Ad0z0vNa3zb1ZKk049x01yg1Eg03040p150An1qhd0x67paxe2xg02321x70y35212" ++
    "1c080xf0xj012215110xa180De02040PVg0T1fgf+d0D20Al4xQ621153x8240B51Nt3y14Ft1yd5y6axh3zr0xmex90" ++
    "21a2xh32170xt2x4417xu0c1xk8a320yv220116020At037l1xp130x5634y65d01010e1yl72210n0yk5104111De36" ++
    "111r1yl72011za0102510z50102314E3811E011040Ag32140x09x8523809522xec11C601210C961510yil261111z" ++
    "q530111610y813010Gr1b1xk45010n0BD506eHC8b32yK04xr6xwo0xv3yh0PBo1AP1xd2mN02h726u3Ak2xZrxm4xh8" ++
    "0e0m41exGg61g261114z40B06Hn0xt3Ls3Du1Dj0207150Kq6zd6UBZlDf")⟩,
  ⟨["mc", "spacingmark"],
    .decode ("yE30xn0228311xi1xq26121a0xb0xq2y20xq28011xl1xq0106121a0z61113212a0x92xt3xt1xq014211191s0e1xq" ++
    "25212a0xa1yb267i1Ga1xv0Bb1406021p1a226l12520a2xPo0u0A107711Gq3224115D01xq010901185Ah0xg05014" ++
    "11xt0u04120xs0221031xg781Bb0l0AVm1Z-j120yo1xifAe1xf0xg14122ze121o0xd010zd02150Dd1111110Vwj01" ++
    "0zv0xd241zj0o1xr0xg291d0yt23110Ba2v1xq113212290a1yk27020131110z528130za2601320Dd26320zh28110" ++
    "zd01160z701140E5290Dn511402010Ae28340yk0t1xu0C903010C70e0za07020Cl44110Gu1c0xg18110ML82zN4xm" ++
    "z81UHj165")⟩,
  ⟨["me", "enclosingmark"],
    .decode "xA81BNk0xMu312xxIb2"⟩,
  ⟨["nd", "decimalnumber", "digit"],
    .decode ("xg9xN69A69C69Is9zm9zm9zm9zm9zm9zm9zm9zm9zm9z09zm9y69Em9y69xW69x69Fc9A09B6969Bm9ym9A6969xyK69" ++
    "R69x69C69m9ym9Im9QUm9xI69yA6969Us9A09xs9Ag9Em9Gm9zm9Hm9z696jyc9J69z69Qm9ym9Dm9y69xm9H69MKm9y" ++
    "F69ym9A69Mm9TXm9ySkxhyG09J69Lm9Dn9Wl9AQm9")⟩,
  ⟨["nl", "letternumber"],
    .decode "BTe2yPfx223zPu0p8e2ZRb9SOgxkKc080A64ExazeOY52"⟩,
  ⟨["no", "othernumber"],
    .decode ("Bi15022yFl5Ho5zo2A56Cp6h8Jh9xxljxzj9L00xQl03569C6fx90SmxryelPmtxH90xAk3Aa9u71ex09x7eZHg5SChx" ++
    "cy13h1Glqx43xFk7p6x78yb4m5B012f2xdy08xk1u2yb4z87o7x96Ga5H0uAu9xa3zg6A6jHrjxG51Je8X7iWjkOY66U" ++
    "umVx9jcjzcoBGe8Z1xq1213ycxc1e+2c")⟩,
  ⟨["pc", "connectorpunctuation"],
    .decode "yv0D+v1j0xTKu1o2Df0"⟩,
  ⟨["pd", "dashpunctuation"],
    .decode "xd0xGs0xj0zO10xw50yw95zM1020v140s0Ju0j0zf0xPIg1x50a0B90zP00Fu0"⟩,
  ⟨["ps", "openpunctuation"],
    .decode ("x80xi0v0zRu010xWu0yHu030x60xn0f0Pq010u0xxu0101010101010yg0x0010101010Ik010101010101010101010" ++
    "y0010x10xx50101010p0i0101010Jc0101010103010101020xPF10Cn0t01010101010101030h01010Ba0xi0v0302" ++
    "0")⟩,
  ⟨["pe", "closepunctuation"],
    .decode ("x90xj0v0zRt010xWu0yJ90xn0f0Pq010u0xxu0101010101010yg0x0010101010Ik010101010101010101010y0010" ++
    "x10xx50101010xc0101010Jc0101010103010101021xPEu0Cp0t01010101010101030h01010Ba0xj0v02020")⟩,
  ⟨["pi", "initialpunctuation"],
    .decode "Bb0DXc02120p0zK80104020f030"⟩,
  ⟨["pf", "finalpunctuation"],
    .decode "Br0DWt030s0zK80104020f030"⟩,
  ⟨["po", "otherpunctuation"],
    .decode ("x1212201011a131r0y4050e170Ru080Ki5x90xm02020xc1k111d012ya3z60xbdD92xmev0E51a0Ac0zo0zp0I60c0H" ++
    "f0yq0a1B8e10zg0ya441zf5Bb0P48U50zs2y71At212x5513Fp1Co1A0615B01a6s2zs3xr4xu1y07b0W21878823223" ++
    "a1019zAq311zg0Af1422028111021a41923101c22Jc2xp0Bt0Zw21Ed2z30a0zj5Hs3ym1x8210xh1xf0z1cg1zs3zu" ++
    "1g1Dp0QN4620m0k1233213726011Al212201011a131r0x4021Iq2Qs0xg0Iu0T70C70v0Eg8x60zg6y26yp3Vj0A44x" ++
    "c3Bt6zd113zu3xg1yf340d012yo5zb0Fa111zi4a110z80Dqmz92scyc0A22Ds0E82Ar0ys7yj214yt9Cn0yv4xa1Q51" ++
    "yacBf0xzg4yXs1KPr1A50y1480N82F73G70PBs0DL74yXj0Wu1")⟩,
  ⟨["sm", "mathsymbol"],
    .decode ("xb0g2xt010xd040x50v0Tu0Mf2CNr0d0x72d2Ab0x7460y445140202070v12010vEbx01yq0uox85Kl090xm7zf0Gg4" ++
    "2uafE0A2mxu4v2E1xgk25xP+s0Vo012B40g2xt010A3063zJ11xMH00x+g0p0v0p0v0p0v0p0v0p0BVc1yKu8")⟩,
  ⟨["sc", "currencysymbol"],
    .decode "x40zt3xD90zr0Li1Li170Dl0E70O50yIr0yC4x1xxXm0RK30zc0Aq0Cr131D-m3xMUu0yJg0"⟩,
  ⟨["sk", "modifiersymbol"],
    .decode "yu010y70604030M93cd56101gzl0e1xE20BVk012b2d2d2d1AAs1ZP3m91z71+g0e1Qy6gXr010B20xZwn4"⟩,
  ⟨["so", "othersymbol"],
    .decode ("B60204010+h0Ea1zv1Ce0a0j1Dn0M30Hl0A2510A40Cf0x90I72f01225k01010A57151153C51Tg9Sj0Si0Atx1H199" ++
    "8xI311311a0116510101040b1e01110xq194231111161u21101uEc74j262yg1tpx76y7mayhydmBm181xl8ze1Dnxc" ++
    "xby0DvM0xfl16x62A9D55H51xep1yocClqf40d1c0l161Gg149x0x590gubt80fvax6fFvCK0xvRQgxmX13a110Nt2QG" ++
    "9fHdfy01xm7xd2L403041d1Fp8xpg221c30xfxcxPq1Of0xw87yz60yAl74gOWa350QGm0zX3Dfa23Jj6mffz0zjxsDl" ++
    "ax62xr52m17t4xsly130BqymxB9Lvxn3xi71d11xS80yWs0A10Shxb4z3ce2e1e1x4nB0xosdxb4871e5AqDq5So3g3c" ++
    "3Cp6b40fb4xn896x78t2b41xuGn8d2c3a3xo104f2b497Ai1yra0")⟩,
  ⟨["zs", "spaceseparator"],
    .decode "x00zv0BKv0yHvax40xf0zZ00"⟩,
  ⟨["zl", "lineseparator"],
    .decode "Ex80"⟩,
  ⟨["zp", "paragraphseparator"],
    .decode "Ex90"⟩,
  ⟨["cc", "control", "cntrl"],
    .decode "0vyvx0"⟩,
  ⟨["cf", "format"],
    .decode "Bd0xGi5m0C00xh0I01yg0zVb0x-s4q4xh419xTQf0Dp2AC10f0EX2fxyz03BCf7UHQ60uyv"⟩,
  ⟨["co", "privateuse"],
    .decode "xUw0CDvYxU0x--t2x--t"⟩,
  ⟨["cn", "unassigned"],
    .decode ("Xo1637010k0Id0x61xi130xn7r36aEe0xs1z5dxr1xh1f0s110b4x24Dd08121m0701241912147132051p1306321m0" ++
    "7020202110532132164016h9309030m0702051a030311e41c670308121m0702051912136332051i9206230422010" ++
    "222232c3523041151dl4d030n0g190304620302141a6m030n0a051903046243041a03bd030xj03063g1q030i2o09" ++
    "0117213601085a13bxq3tx4201050o010n1501070a14vy80x43x70x40f0dx4C601411Hp041701041x9041x104170" ++
    "1041f0xp041y31x02q5ym161Qt2yp6m8o8kbd0302byu1a5a5q5yp6xb4y69v0c3c312xa15axc3q5b2xu1y10t1b5a5" ++
    "e1xe1cjyd0B67xs2f2xu4xb1b7xb4Mm161x616180101010v1xl0f0e160j13090z50c1r0d2x2dx1eAc3QqlbkxUk1H" ++
    "u4xd01411xo62do87070707070707070zux1q0ypbCmpyg0ym1z74xb0yu0ym8xg0YPd2xn8GsjBo7Ctjxs2a5xo7y67" ++
    "c5zkau2ye0b3x10xn8e1a1z7ns96161687070xs3zu1a5GZ4bn3xh3EPe1zax57b54q050102020Qavxa5xj0j04350A" ++
    "7110Bu261616132707951c0q0j020f1ex1zr433xd2yo0d21xexeA1t2xhes3x48u4xb4u0x53ex9Au1a5x43x43x87x" ++
    "kac0f07020b0f07022xkbFn8m98n60xa09y46110xc02211n0y879xfj024x12r4rx5xo3k1xi0248030t133a696y0v" ++
    "x73c8xm2t1r4q64b7yfy9xmxjcxj6xe7a5x62t72Cfv0xa0312f679x0xe7xalqx5sjn8ye3x48y4911p6a5xl0i7x78" ++
    "z00kai0xfxt701040f0b5xr4a5408121m0702050a12131151471725aa01110x60a0111040a0272sys05ty87aB5xm" ++
    "1x6x1y5aa5dixq5a5krr1f3nBoxsz3yjb81118020u021c8ay581xe1bqy87yjcy96ayl8ynx2da590xd0e9t2x01m0e" ++
    "y87020xc2102097a56020x502066a5xc3aDlp6h0x92tyk1exicYrz5zf05aC4yObz3cxym9zYr4O7CRoxqxS5Np6v0a" ++
    "3yh0a5u169y69a070l4jJfxqC5yr4p1pxbyb3xp6hxv5a78DCmx8x0z0zjELs407020F3e1s311d47IcyE3zb4d296a1" ++
    "8zWrDt2Jk5nehexe1n8zkxrDm9x71C2ky6zpkbkbyn8pA6yl0y7021112140c01070y10418070s040501270Gk1F41R" ++
    "ue50fxyfv56Ck70h1702054xux01zfxd2e1a32Fvvgxq41KfxaClxb31Bvv0m72Cv704020f0C51gx8yc3a32Ugy4ybx" ++
    "tC140r0201110a040101513101010302011101010101020114070404010a0h43050hxj2Edxc3z4bf1f0f0x59Bexn" ++
    "tcxc3962d6Ap+p2h2d2Cq5c31ec3xo7a5x87u1c32d9x6Go7e1d2b2xp013g1c3a6Aj0z7xw4xFT0vAEu1BQe1DFhePe" ++
    "yJ1MuxL1AWb4EFaROY61tz0zvDgx-Mfx--u1x--u1")⟩]

/-- The groups of categories: their names and the categories they hold. -/
def categoryGroups : List (List String × List String) := [
  (["l", "letter"], ["lu", "ll", "lt", "lm", "lo"]),
  (["lc", "casedletter"], ["lu", "ll", "lt"]),
  (["m", "mark", "combiningmark"], ["mn", "mc", "me"]),
  (["n", "number"], ["nd", "nl", "no"]),
  (["p", "punctuation", "punct"], ["pc", "pd", "ps", "pe", "pi", "pf", "po"]),
  (["s", "symbol"], ["sm", "sc", "sk", "so"]),
  (["z", "separator"], ["zs", "zl", "zp"]),
  (["c", "other"], ["cc", "cf", "co", "cn"])]

/-- The code points of the category, or group of categories, of this name. -/
def category? (name : String) : Option Ranges :=
  match categories.find? (·.names.contains name) with
  | some c => some c.ranges
  | none =>
    (categoryGroups.find? (·.1.contains name)).map fun (_, members) =>
      (categories.filter fun c => c.names.any members.contains).flatMap (·.ranges)

end ImportAtlas.Unicode
