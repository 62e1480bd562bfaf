/-!
# Powers of numbers

A power that is written out in digits is the one that comes with the numbers, also where monoids
bring another.
-/

attribute [default_instance 10001] instPowNat
