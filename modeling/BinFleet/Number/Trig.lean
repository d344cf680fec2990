import BinFleet.Number.Binary

namespace BinFleet.Number.Trig

def pi : Float := 3.14159265358979323846264338327950288419716939937510582097494459

/-- The digits of `4 / π` down to `2 ^ -1216`. -/
def fourOverPi : Nat :=
  0x145f306dc9c882a53f84eafa3ea69bb81b6c52b3278872083fca2c757bd778ac36e48dc74849ba5c00c925dd413a32439fc3bd63962534e7dd1046bea5d768909d338e04d68befc827323ac7306a673e93908bf177bf250763ff12fffbc0b301fde5e2316b414da3eda6cfd9e4f96136e9e8c7ecd3cbfd45aea4f758fd7cbe2f67a0e73ef14a525d4d7f6bf623f1aba10ac06608df8f6d757

def sineCoefficients : List Float :=
  [1.58962301576546568060e-10, -2.50507477628578072866e-8, 2.75573136213857245213e-6,
    -1.98412698295895385996e-4, 8.33333333332211858878e-3, -1.66666666666666307295e-1]

def cosineCoefficients : List Float :=
  [-1.13585365213876817300e-11, 2.08757008419747316778e-9, -2.75573141792967388112e-7,
    2.48015872888517045348e-5, -1.38888888888730564116e-3, 4.16666666666665929218e-2]

/-- A polynomial, the leading coefficient first. -/
def polynomial (coefficients : List Float) (x : Float) : Float :=
  match coefficients with
  | [] => 0.0
  | c :: cs => cs.foldl (fun y c => y * x + c) c

/-- The octant of an angle and the angle inside it, measured from its even edge. -/
structure Reduced where
  octant : Nat
  angle : Float

/-- For angles below `2 ^ 29`: the multiple of `π / 4` is taken off in three parts. -/
def reduceSmall (x : Float) : Reduced :=
  let j := (x * 1.27323954473516268615).toUInt64.toNat
  let j := if j % 2 = 1 then j + 1 else j
  let y := Float.ofNat j
  ⟨j % 8, ((x - y * 7.85398125648498535156e-1) - y * 3.77489470793079817668e-8) -
    y * 2.69515142907905952645e-15⟩

/-- For larger angles: the product of the significand with three words of `4 / π`, the first of
which starts where the exponent says. -/
def reduceLarge (x : Float) : Reduced :=
  let bits := x.toBits.toNat
  let start := bits / Nat.pow 2 52 % 2048 - 1014
  let significand := bits % Nat.pow 2 52 + Nat.pow 2 52
  let word := fun (i : Nat) => fourOverPi / Nat.pow 2 (1216 - (start + 64 * i)) % Nat.pow 2 64
  let sum := word 0 * significand * Nat.pow 2 64 + word 1 * significand + word 2 * significand / Nat.pow 2 64
  let product := sum % Nat.pow 2 128
  let octant := product / Nat.pow 2 125
  let fraction := product / Nat.pow 2 61 % Nat.pow 2 64
  let below := product % Nat.pow 2 61
  let width := if fraction = 0 then 0 else Nat.log2 fraction + 1
  let zeros := 64 - width
  let carried := product % Nat.pow 2 64 / Nat.pow 2 (64 - (zeros + 1))
  let shifted := (fraction * Nat.pow 2 (zeros + 1) + carried) % Nat.pow 2 64
  let z := Float.ofBits ((1023 - (zeros + 1)) * Nat.pow 2 52 + shifted / Nat.pow 2 12).toUInt64
  let z := if below = 0 && fraction = 0 then 0.0 else z
  if octant % 2 = 1 then ⟨(octant + 1) % 8, (z - 1.0) * (pi / 4.0)⟩ else ⟨octant, z * (pi / 4.0)⟩

/-- The angle within an eighth of a turn; from `2 ^ 29` on it takes more digits of `4 / π`. -/
def reduce (x : Float) : Reduced := if x >= 536870912.0 then reduceLarge x else reduceSmall x

def sinePart (z : Float) : Float :=
  let zz := z * z
  z + z * zz * polynomial sineCoefficients zz

def cosinePart (z : Float) : Float :=
  let zz := z * z
  1.0 - 0.5 * zz + zz * zz * polynomial cosineCoefficients zz

def sine (x : Float) : Float :=
  if x == 0.0 || x != x then x
  else if x.abs == 1.0 / 0.0 then 0.0 / 0.0
  else
    let r := reduce x.abs
    let j := if r.octant > 3 then r.octant - 4 else r.octant
    let y := if j = 1 ∨ j = 2 then cosinePart r.angle else sinePart r.angle
    if (x < 0.0) != (r.octant > 3 : Bool) then -y else y

def cosine (x : Float) : Float :=
  if x != x || x.abs == 1.0 / 0.0 then 0.0 / 0.0
  else
    let r := reduce x.abs
    let j := if r.octant > 3 then r.octant - 4 else r.octant
    let y := if j = 1 ∨ j = 2 then sinePart r.angle else cosinePart r.angle
    if (r.octant > 3 : Bool) != (j > 1 : Bool) then -y else y

/-- The arc tangent on `[0, 0.66]`. -/
def arcTangentSmall (x : Float) : Float :=
  let z := x * x
  let p := polynomial [-8.750608600031904122785e-01, -1.615753718733365076637e+01,
    -7.500855792314704667340e+01, -1.228866684490136173410e+02, -6.485021904942025371773e+01] z
  let q := polynomial [1.0, 2.485846490142306297962e+01, 1.650270098316988542046e+02,
    4.328810604912902668951e+02, 4.853903996359136964868e+02, 1.945506571482613964425e+02] z
  x * (z * p / q) + x

/-- The arc tangent of a number that is not negative. -/
def arcTangent (x : Float) : Float :=
  let more := 6.123233995736765886130e-17
  if x <= 0.66 then arcTangentSmall x
  else if x > 2.41421356237309504880 then pi / 2.0 - arcTangentSmall (1.0 / x) + more
  else pi / 4.0 + arcTangentSmall ((x - 1.0) / (x + 1.0)) + 0.5 * more

/-- The angle of the point `(x, y)` in the first quadrant. -/
def angle (y x : Float) : Float :=
  if y != y || x != x then 0.0 / 0.0
  else if y == 0.0 then 0.0
  else if x == 0.0 then pi / 2.0
  else arcTangent (y / x)

end BinFleet.Number.Trig
