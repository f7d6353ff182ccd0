/-!
# Records of local time

The changes of local time that follow no yearly rule: the end of local mean time, the war years, and
the years before a zone's present rules. Each entry holds the second of universal time at which an
offset begins and that offset in seconds east of Greenwich, in ascending order.
-/

namespace FuturesChains.Calendar

/-- American central time until the end of 1966. -/
def centralRecord : List (Int × Int) :=
  [(-2717647200, -21600), (-1633276800, -18000), (-1615136400, -21600), (-1601827200, -18000),
  (-1583686800, -21600), (-1563724800, -18000), (-1551632400, -21600), (-1538928000, -18000),
  (-1520182800, -21600), (-1504454400, -18000), (-1491757200, -21600), (-1473004800, -18000),
  (-1459702800, -21600), (-1441555200, -18000), (-1428253200, -21600), (-1410105600, -18000),
  (-1396803600, -21600), (-1378656000, -18000), (-1365354000, -21600), (-1347206400, -18000),
  (-1333904400, -21600), (-1315152000, -18000), (-1301850000, -21600), (-1283702400, -18000),
  (-1270400400, -21600), (-1252252800, -18000), (-1238950800, -21600), (-1220803200, -18000),
  (-1207501200, -21600), (-1189353600, -18000), (-1176051600, -21600), (-1157299200, -18000),
  (-1144602000, -21600), (-1125849600, -18000), (-1112547600, -21600), (-1094400000, -18000),
  (-1081098000, -21600), (-1067788800, -18000), (-1045414800, -21600), (-1031500800, -18000),
  (-1018198800, -21600), (-1000051200, -18000), (-986749200, -21600), (-967996800, -18000),
  (-955299600, -21600), (-936547200, -18000), (-923245200, -21600), (-905097600, -18000),
  (-891795600, -21600), (-880214400, -18000), (-765392400, -21600), (-747244800, -18000),
  (-733942800, -21600), (-715795200, -18000), (-702493200, -21600), (-684345600, -18000),
  (-671043600, -21600), (-652896000, -18000), (-639594000, -21600), (-620841600, -18000),
  (-608144400, -21600), (-589392000, -18000), (-576090000, -21600), (-557942400, -18000),
  (-544640400, -21600), (-526492800, -18000), (-513190800, -21600), (-495043200, -18000),
  (-481741200, -21600), (-463593600, -18000), (-447267600, -21600), (-431539200, -18000),
  (-415818000, -21600), (-400089600, -18000), (-384368400, -21600), (-368640000, -18000),
  (-352918800, -21600), (-337190400, -18000), (-321469200, -21600), (-305740800, -18000),
  (-289414800, -21600), (-273686400, -18000), (-257965200, -21600), (-242236800, -18000),
  (-226515600, -21600), (-210787200, -18000), (-195066000, -21600), (-179337600, -18000),
  (-163616400, -21600), (-147888000, -18000), (-131562000, -21600), (-116438400, -18000),
  (-100112400, -21600)]

/-- American eastern time until the end of 1966. -/
def easternRecord : List (Int × Int) :=
  [(-2717650800, -18000), (-1633280400, -14400), (-1615140000, -18000), (-1601830800, -14400),
  (-1583690400, -18000), (-1570381200, -14400), (-1551636000, -18000), (-1536512400, -14400),
  (-1523210400, -18000), (-1504458000, -14400), (-1491760800, -18000), (-1473008400, -14400),
  (-1459706400, -18000), (-1441558800, -14400), (-1428256800, -18000), (-1410109200, -14400),
  (-1396807200, -18000), (-1378659600, -14400), (-1365357600, -18000), (-1347210000, -14400),
  (-1333908000, -18000), (-1315155600, -14400), (-1301853600, -18000), (-1283706000, -14400),
  (-1270404000, -18000), (-1252256400, -14400), (-1238954400, -18000), (-1220806800, -14400),
  (-1207504800, -18000), (-1189357200, -14400), (-1176055200, -18000), (-1157302800, -14400),
  (-1144605600, -18000), (-1125853200, -14400), (-1112551200, -18000), (-1094403600, -14400),
  (-1081101600, -18000), (-1062954000, -14400), (-1049652000, -18000), (-1031504400, -14400),
  (-1018202400, -18000), (-1000054800, -14400), (-986752800, -18000), (-968000400, -14400),
  (-955303200, -18000), (-936550800, -14400), (-923248800, -18000), (-905101200, -14400),
  (-891799200, -18000), (-880218000, -14400), (-765396000, -18000), (-747248400, -14400),
  (-733946400, -18000), (-715798800, -14400), (-702496800, -18000), (-684349200, -14400),
  (-671047200, -18000), (-652899600, -14400), (-639597600, -18000), (-620845200, -14400),
  (-608148000, -18000), (-589395600, -14400), (-576093600, -18000), (-557946000, -14400),
  (-544644000, -18000), (-526496400, -14400), (-513194400, -18000), (-495046800, -14400),
  (-481744800, -18000), (-463597200, -14400), (-447271200, -18000), (-431542800, -14400),
  (-415821600, -18000), (-400093200, -14400), (-384372000, -18000), (-368643600, -14400),
  (-352922400, -18000), (-337194000, -14400), (-321472800, -18000), (-305744400, -14400),
  (-289418400, -18000), (-273690000, -14400), (-257968800, -18000), (-242240400, -14400),
  (-226519200, -18000), (-210790800, -14400), (-195069600, -18000), (-179341200, -14400),
  (-163620000, -18000), (-147891600, -14400), (-131565600, -18000), (-116442000, -14400),
  (-100116000, -18000)]

/-- Berlin until the end of 1979. -/
def berlinRecord : List (Int × Int) :=
  [(-2422054408, 3600), (-1693706400, 7200), (-1680483600, 3600), (-1663455600, 7200),
  (-1650150000, 3600), (-1632006000, 7200), (-1618700400, 3600), (-938905200, 7200),
  (-857257200, 3600), (-844556400, 7200), (-828226800, 3600), (-812502000, 7200),
  (-796777200, 3600), (-781052400, 7200), (-776563200, 10800), (-765936000, 7200),
  (-761180400, 3600), (-748479600, 7200), (-733273200, 3600), (-717631200, 7200),
  (-714610800, 10800), (-710380800, 7200), (-701910000, 3600), (-684975600, 7200),
  (-670460400, 3600), (-654130800, 7200), (-639010800, 3600)]

/-- London until the end of 1971. -/
def londonRecord : List (Int × Int) :=
  [(-3852662325, 0), (-1691964000, 3600), (-1680472800, 0), (-1664143200, 3600), (-1650146400, 0),
  (-1633903200, 3600), (-1617487200, 0), (-1601848800, 3600), (-1586037600, 0),
  (-1570399200, 3600), (-1552168800, 0), (-1538344800, 3600), (-1522533600, 0),
  (-1507500000, 3600), (-1490565600, 0), (-1473631200, 3600), (-1460930400, 0),
  (-1442786400, 3600), (-1428876000, 0), (-1410732000, 3600), (-1396216800, 0),
  (-1379282400, 3600), (-1364767200, 0), (-1348437600, 3600), (-1333317600, 0),
  (-1315778400, 3600), (-1301263200, 0), (-1284328800, 3600), (-1269813600, 0),
  (-1253484000, 3600), (-1238364000, 0), (-1221429600, 3600), (-1206914400, 0),
  (-1189980000, 3600), (-1175464800, 0), (-1159135200, 3600), (-1143410400, 0),
  (-1126476000, 3600), (-1111960800, 0), (-1095631200, 3600), (-1080511200, 0),
  (-1063576800, 3600), (-1049061600, 0), (-1032127200, 3600), (-1017612000, 0),
  (-1001282400, 3600), (-986162400, 0), (-969228000, 3600), (-950479200, 0), (-942012000, 3600),
  (-904518000, 7200), (-896050800, 3600), (-875487600, 7200), (-864601200, 3600),
  (-844038000, 7200), (-832546800, 3600), (-812588400, 7200), (-798073200, 3600),
  (-781052400, 7200), (-772066800, 3600), (-764805600, 0), (-748476000, 3600), (-733356000, 0),
  (-719445600, 3600), (-717030000, 7200), (-706748400, 3600), (-699487200, 0),
  (-687996000, 3600), (-668037600, 0), (-654732000, 3600), (-636588000, 0), (-622072800, 3600),
  (-605743200, 0), (-590623200, 3600), (-574293600, 0), (-558568800, 3600), (-542239200, 0),
  (-527119200, 3600), (-512604000, 0), (-496274400, 3600), (-481154400, 0), (-464220000, 3600),
  (-449704800, 0), (-432165600, 3600), (-417650400, 0), (-401320800, 3600), (-386200800, 0),
  (-369266400, 3600), (-354751200, 0), (-337816800, 3600), (-323301600, 0), (-306972000, 3600),
  (-291852000, 0), (-276732000, 3600), (-257983200, 0), (-245282400, 3600), (-226533600, 0),
  (-213228000, 3600), (-195084000, 0), (-182383200, 3600), (-163634400, 0), (-150933600, 3600),
  (-132184800, 0), (-119484000, 3600), (-100735200, 0), (-88034400, 3600), (-68680800, 0),
  (-59004000, 3600), (57722400, 0)]

/-- Singapore, which keeps its last offset. -/
def singaporeRecord : List (Int × Int) :=
  [(-2038200925, 25200), (-1167634800, 26400), (-894180000, 27000), (-879665400, 32400),
  (-767005200, 27000), (378662400, 28800)]

end FuturesChains.Calendar
