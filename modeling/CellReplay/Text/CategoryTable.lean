/-!
# Text.CategoryTable

The general category of every code point, from U+0000 up, as runs: a letter names the category
(`Category.ofLetter?`) and the number after it the length of the run, which is 1 where none stands.
-/

namespace CellReplay.Text

def categoryRuns : List String := [
  "A32Zp3Cp3sxpMphp2d10p2M3p2u26spxKkKl26sMxMA33ZpC4OpKOoiMFOKOMf2Klp2Kfojf3pu23Mu7l24Ml8ululul",
  "ululululululululululululululululululululululululul2ulululululululul2ulululululululululululul",
  "ulululululululululululu2lulul3u2lulu2lu3l2u4lu2lu3l3u2lu2lululu2lul2ulu2lu3lulu2l2oul3o4utlu",
  "tlutlulululululululul2ululululululululul2utlulu3lulululululululululululululululululululululu",
  "lululululululul7u2lu2l2ulu4lulululul69ol27m18K4m12K14m5K7mKmK17n112ululmKulN2ml3puN4K2upu3Nu",
  "Nu2lu17Nu9l35ul2u3l3ulululululululululululul5ulMulu2l2u51l48ulululululululululululululululul",
  "ulOn5e2ulululululululululululululululululululululululululululu2lulululululul2ulululululululu",
  "lululululululululululululululululululululululululululululululululululululululululNu38N2mp6",
  "l41phN2O2CNn45hnpn2pn2pnN8o27N4o4p2N11F6M3p2Cp2O2n11pFp3o32mo10n21d10p4o2no99pon7FOn6m2n2On4",
  "o2d10o3O2op14NFono30n27N2o89n11oN14d10o33n9m2Op3mN2nC2o22n4mn9mn3mn5N2p15No25n3N2pNo11N5o24K",
  "o6NF2N6n8o41mn24Fn32co54ncnoc3n8c4nc2on7o10n2p2d10pmo15nc2No8N2o2N2o22No7NoN3o4N2noc3n4N2c2",
  "N2c2noN8cN4o2No3n2N2d10o2C2f6OCopnN2n2cNo6N4o2N2o22No7No2No2No2N2nNc3n2N4n2N2n3N3nN7o4NoN7",
  "d10n2o3npN10n2cNo9No3No22No7No2No5N2noc3n5Nn2cNc2nN2oN15o2n2N2d10pCN7on6Nnc2No8N2o2N2o22No7N",
  "o2No5N2nocncn4N2c2N2c2nN7n2cN4o2No3n2N2d10Oof6N10noNo6N3o3No4N3o2NoNo2N3o2N3o3N3o12N4c2nc2N3",
  "c3Nc3nN2oN6cN14d10f3O6CON5nc3no8No3No23No16N2non3c4Nn3Nn4N7n2No3N2oN2o2n2N2d10N7pf7Oonc2po8N",
  "o3No23No10No5N2nocnc5Nnc2Nc2n2N7c2N6o2No2n2N2d10No2cN12n2c2o9No3No41n2oc3n4Nc3Nc3noON4o3cf7",
  "o3n2N2d10f9Oo6Nnc2No18N3o24No9NoN2o7N3nN4c3n3NnNc8N6d10N2c2pN12o48no2n7N4Co6mn8pd10p2N37o2No",
  "No5No24NoNo10no2n9oN2o5NmNn7Nd10N2o4N32oO3p15OpO3n2O6d10f10OnOnOnsxsxc2o8No36N4n14cn5pn2o5",
  "n11Nn36NO8nO6NO2p5O4p2N37o43c2n4cn6cn2c2n2od10p6o6c2n2o4n3oc3o2c7o3n4o13nc2n2c6nocd10c3nO2",
  "u38NuN5uN2l43pml3o329No4N2o7NoNo4N2o41No4N2o33No4N2o7NoNo4N2o15No57No4N2o67N2n3p9f20N3o16O10",
  "N6u86N2l6N2ho620Opo17Zo26sxN3o75p3r3o8N7o18n3cN9o19n2cp2N9o18n2N12o13No3Nn2N12o52n2cn7c8nc2",
  "n11p3mp3ConN2d10N6f10N6p6hp4n3Fnd10N6o35mo53N7o5n2o34noN5o70N10o31Nn3c4n2c3N4c2nc6n3N4ON3p2",
  "d10o30N2o5N11o44N4o26N6d10fN3O34o23n2c2nN2p2o53cncn7Nncnc2n8c6n10N2nd10N6d10N6p7mp6N2n14en16",
  "N49n4co47ncn5cnc5nc2o8N3d10p7O10n9O9p2Nn2co30cn4c2n2cn3o2d10o44ncn2c3ncn3c2N8p4o36c8n8c2n2N3",
  "p5d10N3o3d10o30m6p2l9N7u43N2u3p8N8n3pn13cn7o4no6no2cn2oN5l44m63l13ml34m37n64ulululululululul",
  "ulululululululululululululululululululululululululululululululululululululululululululululul",
  "ululululululululululululululululululululul9ululululululululululululululululululululululululu",
  "lulululululululululululululululululululululululul9u8l6N2u6N2l8u8l8u8l6N2u6N2l8NuNuNuNul8u8",
  "l14N2l8t8l8t8l8t8l5Nl2u4tKlK3l3Nl2u4tK3l4N2l2u4NK3l8u5K3N2l3Nl2u4tK2NZ11F5h6p2ijsi2jsip8LPF5",
  "Zp9ijp4k2p3Msxp11Mpkp10ZF5NF10fmN2f6M3sxmf10M3sxNm13N3C33N15n13e4ne3n12N15O2uO4uO2lu3l2u3lOu",
  "O2Mu5O6uOuOuOu4Olu4lo4lO2l2u2M5ul4OMO2lOf16r35ulr4fO2N4M5O5M2O4MO2MO2MO7MO31M2O2MOMO31M268O8",
  "sxsxO20M2O7sxO81MO30M25O40M6O69N25O11N21f60O78f22O183MO9MO54M8O111MO248sxsxsxsxsxsxsxf30O44",
  "M5sxM31sxsxsxsxsxM16O256M131sxsxsxsxsxsxsxsxsxsxsxM63sxsxM32sxM258O48M21O2M6O39N2O32NO105u48",
  "l48ulu3l2ulululu4lul2ul6m2u3lulululululululululululululululululululululululululululululululu",
  "lululululululululululululululululul2O6ululn3ulN5p4fp2l38NlN5lN2o56N7mpN14no23N9o7No7No7No7N",
  "o7No7No7No7Nn32p2ijijp3ijpijp9hp2hpijp2ijsxsxsxsxp5mp10h2p4hpsp13O2p3sxsxsxsxhN34O26NO89N12",
  "O214N26O12N4Zp3OmorsxsxsxsxsxO2sxsxsxsxhsx2Or9n4c2hm5O2r3mopO2No86N2n2K2m2oho90pm3oN5o43No94",
  "NO2f4O10o32O36N12o16O31Nf10O30f8Of15O32f10O39f15O320o6592O64o21013mo1143N3O55N9o40m6p2o268m",
  "p3o16d10o2N20ulululululululululululululululululululululululone3pn10pmulululululululululululu",
  "lululm2n2o70r10n2p6N8K23m9K2ululululululul3ululululululululululululululululululululululululu",
  "lululululululml8ululu2lululululmK2ululoulul3ululululululululululu5lu5lulululululululu4lulN5u",
  "lNlNlululN24m3ulom2lo7no3no4no23c2n2cO4nN3f6O2CON6o52p4N8c2o50c16n2N8p2d10N6n18o6p3opo2nd10",
  "o28n8p2o23n11c2N11po29N3n3co47nc2n4c2n2c3p13Nmd10N4p2o5nmo9d10o5No41n6c2n2c2n2N9o3no8ncN2d10",
  "N2p4o16mo6O3ocnco50non3o2n2o5n2onoN24o2mp2o11cn2c2p2om2cnN10o6N2o6N2o6N9o7No7Nl43Km4l9mK2N4",
  "l80o35c2nc2nc2pcnN2d10N6o11172N12o23N4o49N4S2048V6400o366N2o106N38l7N12l5N5ono10Mo13No5NoNo2",
  "No2No108K17N16o363xsO16o64N2o54N7ON32o12CO3n16p7sxpN6n16ph2k2sxsxsxsxsxsxsxsxp2sxp4k3p3Np4hs",
  "xsxsxp3MhM3NpCp2N4o5No135N2FNp3Cp3sxpMphp2d10p2M3p2u26spxKkKl26sMxMsxpsxp2o10mo45m2o31N3o6N2",
  "o6N2o6N2o3N3C2MKOC2NOM4O2N10F3O2N2o12No26No19No2No15N2o14N34o123N5p3N4f45N3O9r53f4O17f2O3N",
  "O13N3ON47O45nN130o29N3o49N15nf27N4o32f4N9o20ro8rN5o38n5N5o30Npo36N4o8pr5N42u40l40o78N2d10N6",
  "u36N4l36N4o40N8o52N11pu11Nu15Nu7Nu2Nl11Nl15Nl7Nl2N67o311N9o22N10o8N24m6Nm42Nm9N69o6N2oNo44N",
  "o2N3oN2o23Npf8o23O2f7o31N8f9N48o19No2N5f5o22f6N3po26N5pN64o56N4f2o2f16N2f46on3Nn2N5n4o4No3N",
  "o29N2n3N4nf9N7p9N7o29f2po29f3N32o8Oo28n2N4f5p7N9o54N3p7o22N2f8o19N5f8o18N7p4N12f7N80o73N55",
  "u51N13l51N7f6o36n4N8d10N294f31No42Nn2hN2o2N75n3o29f10oN8o22n11f4p5N22o18n4p4N38o21f7N20o23N9",
  "cnco53n15p7N4f20d10no2n2oN9n3co45c3n4c2n2p2Fp4nN10FN2o25N7d10N6n3o36n5cn8Nd10p4oc2oN8o35np2o",
  "N9n2co48c3n9c2o4p4n4pcnd10opop3Nf20N11o18No25c3n3c2ncn2p6no2nN62o7NoNo4No15No10pN6o47nc3n8N5",
  "d10N6n2c2No8N2o2N2o22No7No2No5Nn2oc2nc4N2c2N2c3N2oN6cN5o5c2N2n7N3n5N139o53c3n8c2n3cno4p5d10",
  "p2Npno3N30o48c3n6cnc4n2cn2o2poN8d10N166o47c3n4N2c4n2cn2p23o4n2N34o48c3n8c2ncn2p3oN11d10N6p13",
  "N19o43ncnc2n6cnopN6d10N54o27N2n3c2n4cn5N4d10f2p3Oo7N185o44c3n9cn2pN100u32l32d10f9N12o8N2oN2",
  "o8No2No24c6Nc2N2n2cnococnp3N9d10N70o8N2o39c3n4N2n2c4nopocN27on10o40n6con4p8nN8on6c2n3o46n13c",
  "n2p3op5N13o73N7p10N246o9No37cn7Nn6cnop5N10d10f19N3p2o30N2n22Ncn7cn2cn2N73o7No2No38n6N3nNn2N",
  "n7onN8d10N6o6No2No32c5Nn2Nc2ncnoN7d10N310o19n2c2p2N7n2oco13No34c2n5N3c2ncnp13d10N86oN15f21O8",
  "C4O17N13po922N102r111Np5N11o196N2636o97p2N13o1072F16no6n15N4010o583N8633o569N7o31Nd10N4p2o79",
  "Nd10N6o30N2n5pN10o48n7p5O4m4pON10d10Nf7No21N5o19N688u32l32f23p4N101o75N4noc55N7n4m13N64m2pmn",
  "N11c2N14o6136N8o1238N42o9N8935m4Nm7Nm2No291N15oN29o3N2oN14o4N8o396N2308o107N5o13N3o9N7o10N2O",
  "n2pF4N4700n46N2n23N9O116N60O246N10O39N2O60c2n3O3c6F8n8O2n7O30n4O61N21O66n3ON122f20N12f20N12",
  "O87N9f25N135u26l26u26l7Nl18u26l26uNu2N2uN2u2N2u4Nu8l4NlNl7Nl11u26l26u2Nu4N2u8Nu7Nl26u2Nu4Nu5",
  "NuN3u7Nl26u26l26u26l26u26l26u26l26u26l26u26l28N2u25Ml25Ml6u25Ml25Ml6u25Ml25Ml6u25Ml25Ml6u25M",
  "l25Ml6ulN2d50O512n55O4n50O8nO14nO2p5N15n5Nn15N1104l10ol20N6l6N213n7Nn17N2n7Nn2Nn5N5m62N33n",
  "N112o45N3n7m7N2d10N4oON320o30nN17o44n4d10N5CN464o27mn4d10N742o7No4No2No15No197N2f9n7N41u34",
  "l34n7mN4d10N4p2N785f59Of3Cf4N76f45Of15N194o4No27No2NoN2oNo10No4NoNoN6oN4oNoNoNo3No2NoN2oNoNo",
  "NoNoNo2NoN2o4No7No4No4NoNo10No17N5o3No5No17N52M2N270O44N4O100N12O15N2O15NO15NO37N10f13O161",
  "N56O29N13O44N4O9N7O2N14O6N154O251K5O728N4O17N3O13N3O119N4O95N6O12N4ON15O12N4O56N8O10N6O40N8",
  "O30N2O2N78O340N12O14N2O13N3O9N7O46NO7N8O14N4O9N7O9N7O147NO55N37d10N1030o42720N32o4154N6o222",
  "N2o5762N14o7473N3103o542N1506o4939N5o4192N711761FN30F96N128n240N65040V65534N2V65534N2"]

end CellReplay.Text
